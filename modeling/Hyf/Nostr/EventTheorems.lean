import Hyf.Nostr.Event

/-!
# Hexadecimal, event ids and signatures

Lower-case hexadecimal is a bijection between byte strings and the texts that the decoder accepts.
The serialization writes the bytes `canonicalBytes` to every sink, so an event always has an id, and
an event that was signed with a key is verified when the verifier accepts what that key signed.
-/

namespace Hyf.Nostr

open ByteCodec WriterM JsonText

/-! ## Hexadecimal -/

/-- The digit of a number below 16. -/
def hexDigit (nibble : UInt8) : UInt8 := hexDigits.getD nibble.toNat 0

/-- The two digits of a byte. -/
def hexPair (byte : UInt8) : List UInt8 := [hexDigit (byte >>> 4), hexDigit (byte &&& 0x0f)]

/-- The digits of a byte string. -/
def lowerHex (bytes : List UInt8) : List UInt8 := bytes.flatMap hexPair

/-- Two digits for every byte. -/
theorem length_lowerHex (bytes : List UInt8) : (lowerHex bytes).length = bytes.length * 2 := by
  induction bytes with
  | nil => rfl
  | cons byte bytes ih =>
    rw [lowerHex, List.flatMap_cons, List.length_append, List.length_cons, ← lowerHex, ih]
    show 2 + bytes.length * 2 = _
    omega

/-- The table has a digit for both halves of a byte. -/
theorem byteAt_hexDigits {ε : Type} (byte : UInt8) :
    (byteAt hexDigits (byte >>> 4).toNat : Outcome ε UInt8) = .ok (hexDigit (byte >>> 4)) ∧
    (byteAt hexDigits (byte &&& 0x0f).toNat : Outcome ε UInt8) = .ok (hexDigit (byte &&& 0x0f)) := by
  have hget : hexDigits[(byte >>> 4).toNat]? = some (hexDigit (byte >>> 4)) ∧
      hexDigits[(byte &&& 0x0f).toNat]? = some (hexDigit (byte &&& 0x0f)) := by
    revert byte
    apply forall_byte
    decide
  rw [byteAt, byteAt, hget.1, hget.2]
  exact ⟨rfl, rfl⟩

/-- The loop writes the digits. -/
theorem writes_writeHexDigits (bytes : List UInt8) :
    Writes (writeHexDigits bytes) (lowerHex bytes) := by
  induction bytes with
  | nil => exact Writes.nil
  | cons byte bytes ih =>
    obtain ⟨hhigh, hlow⟩ := byteAt_hexDigits byte
    rw [writeHexDigits, Outcome.lift_bind hhigh]
    simp only [Outcome.lift_bind hlow]
    exact (writes_writeArray [_]).bind ((writes_writeArray [_]).bind ih)

/-- The digits of a byte are ASCII. -/
theorem hexPair_ascii (byte : UInt8) : ∀ digit ∈ hexPair byte, digit < 128 := by
  have hdigits : hexDigit (byte >>> 4) < 128 ∧ hexDigit (byte &&& 0x0f) < 128 := by
    revert byte
    apply forall_byte
    decide
  intro digit hdigit
  obtain rfl | rfl := List.mem_pair.mp hdigit
  · exact hdigits.1
  · exact hdigits.2

/-- The digits of bytes are ASCII. -/
theorem lowerHex_ascii (bytes : List UInt8) : ∀ digit ∈ lowerHex bytes, digit < 128 := by
  intro digit hdigit
  obtain ⟨byte, -, hbyte⟩ := List.mem_flatMap.mp hdigit
  exact hexPair_ascii byte digit hbyte

/-- The text of the digits of a byte string. -/
def hexText (bytes : List UInt8) : String := (fromUtf8 (lowerHex bytes)).getD ""

/-- The digits are a text. -/
theorem fromUtf8_lowerHex (bytes : List UInt8) : fromUtf8 (lowerHex bytes) = some (hexText bytes) := by
  rw [hexText, fromUtf8_ascii (lowerHex_ascii bytes), Option.getD_some]

/-- The bytes of the text are the digits. -/
theorem asBytes_hexText (bytes : List UInt8) : asBytes (hexText bytes) = lowerHex bytes :=
  asBytes_fromUtf8 (fromUtf8_lowerHex bytes)

/-- With room for two digits a byte, `encode_lower_hex` writes them and returns their text. -/
theorem encodeLowerHex_eq {bytes out : List UInt8} (hlimit : bytes.length * 2 < addressLimit)
    (hroom : bytes.length * 2 ≤ out.length) :
    encodeLowerHex bytes out = .ok (hexText bytes, lowerHex bytes ++ out.drop (bytes.length * 2)) := by
  have hmul : checkedMul bytes.length 2 = some (bytes.length * 2) := if_pos hlimit
  have hlen := length_lowerHex bytes
  have hwrite := (writes_writeHexDigits bytes).runOn (hlen ▸ hlimit) (hlen ▸ hroom)
  have hslice : (slice (lowerHex bytes ++ out.drop (lowerHex bytes).length) 0 (bytes.length * 2) :
      Outcome NostrError (List UInt8)) = .ok (lowerHex bytes) := by
    rw [slice, if_pos ⟨Nat.zero_le _, by rw [List.length_append]; omega⟩, List.drop_zero,
      Nat.sub_zero, ← hlen, List.take_left]
  rw [encodeLowerHex, hmul]
  simp only [pure_bind]
  rw [Outcome.bind_eq (rejectIf_eq_ok (not_lt.mpr hroom)),
    Outcome.bind_eq hwrite, Outcome.bind_eq hslice]
  simp only [fromUtf8_lowerHex, hlen]
  rfl

/-- A fixed array is written to an output of exactly twice its size. -/
theorem encodeLowerHex_vector {n : ℕ} (value : ByteArrayN n) (hn : n * 2 < addressLimit) :
    encodeLowerHex value.toList (List.replicate (n * 2) 0) =
      .ok (hexText value.toList, lowerHex value.toList) := by
  have hlen : value.toList.length = n := value.toList_length
  have hroom : value.toList.length * 2 ≤ (List.replicate (n * 2) (0 : UInt8)).length := by
    rw [hlen, List.length_replicate]
  rw [encodeLowerHex_eq (hlen.symm ▸ hn) hroom,
    List.drop_eq_nil_of_le (by rw [hlen, List.length_replicate]), List.append_nil]

/-- A digit is decoded to its number. -/
theorem decodeNibble_hexDigit {nibble : UInt8} (h : nibble < 16) (index : ℕ) :
    decodeNibble (hexDigit nibble) index = .ok nibble := by
  have hdigit : ∀ nibble : UInt8, nibble < 16 →
      (0x30 ≤ hexDigit nibble ∧ hexDigit nibble ≤ 0x39 ∧ hexDigit nibble - 0x30 = nibble) ∨
      (¬(0x30 ≤ hexDigit nibble ∧ hexDigit nibble ≤ 0x39) ∧ 0x61 ≤ hexDigit nibble ∧
        hexDigit nibble ≤ 0x66 ∧ hexDigit nibble - 0x61 + 10 = nibble) := by
    apply forall_byte
    decide
  rcases hdigit nibble h with ⟨hlow, hhigh, heq⟩ | ⟨hnot, hlow, hhigh, heq⟩
  · rw [decodeNibble, if_pos ⟨hlow, hhigh⟩, heq]
  · rw [decodeNibble, if_neg hnot, if_pos ⟨hlow, hhigh⟩, heq]

/-- The error is about the room for the result. -/
def NostrError.isOutputTooSmall : NostrError → Bool
  | .outputTooSmall _ _ => true
  | _ => false

/-- Whatever is decoded is a digit. -/
theorem decodeNibble_cases (byte : UInt8) : (∃ nibble < 16, byte = hexDigit nibble) ∨
    ∀ index, ∃ error : NostrError, error.isOutputTooSmall = false ∧
      decodeNibble byte index = fail error := by
  have hdigit : ∀ byte : UInt8,
      (0x30 ≤ byte ∧ byte ≤ 0x39 → byte - 0x30 < 16 ∧ byte = hexDigit (byte - 0x30)) ∧
      (0x61 ≤ byte ∧ byte ≤ 0x66 →
        byte - 0x61 + 10 < 16 ∧ byte = hexDigit (byte - 0x61 + 10)) := by
    apply forall_byte
    decide
  by_cases hnumber : 0x30 ≤ byte ∧ byte ≤ 0x39
  · exact .inl ⟨_, (hdigit byte).1 hnumber⟩
  by_cases hletter : 0x61 ≤ byte ∧ byte ≤ 0x66
  · exact .inl ⟨_, (hdigit byte).2 hletter⟩
  right
  intro index
  rw [decodeNibble, if_neg hnumber, if_neg hletter]
  split_ifs
  · exact ⟨_, rfl, rfl⟩
  · exact ⟨_, rfl, rfl⟩

/-- A byte is made of its two halves. -/
theorem nibble_lt (byte : UInt8) : byte >>> 4 < 16 ∧ byte &&& 0x0f < 16 ∧
    ((byte >>> 4) <<< 4) ||| (byte &&& 0x0f) = byte := by
  revert byte
  apply forall_byte
  decide

/-- Two numbers below 16 are the halves of the byte they make. -/
theorem hexPair_nibbles {high low : UInt8} (hhigh : high < 16) (hlow : low < 16) :
    hexPair ((high <<< 4) ||| low) = [hexDigit high, hexDigit low] := by
  have hhalves : ∀ high low : Fin 16, hexPair ((UInt8.ofNat high <<< 4) ||| UInt8.ofNat low) =
      [hexDigit (UInt8.ofNat high), hexDigit (UInt8.ofNat low)] := by
    decide
  have hpair := hhalves ⟨high.toNat, hhigh⟩ ⟨low.toNat, hlow⟩
  rwa [UInt8.ofNat_toNat, UInt8.ofNat_toNat] at hpair

/-- The loop writes the bytes whose digits it is given. -/
theorem writes_writeDecodedHex (bytes : List UInt8) (index : ℕ) :
    Writes (writeDecodedHex index (lowerHex bytes)) bytes := by
  induction bytes generalizing index with
  | nil => exact Writes.nil
  | cons byte bytes ih =>
    obtain ⟨hhigh, hlow, hbyte⟩ := nibble_lt byte
    show Writes (writeDecodedHex index (hexDigit (byte >>> 4) :: hexDigit (byte &&& 0x0f) ::
      lowerHex bytes)) ([byte] ++ bytes)
    rw [writeDecodedHex, Outcome.lift_bind (decodeNibble_hexDigit hhigh _),
      Outcome.lift_bind (decodeNibble_hexDigit hlow _), hbyte]
    exact (writes_writeArray [byte]).bind (ih (index + 1))

/-- An even number of characters are the digits of a byte string, or the loop stops at one that is
not a digit. -/
theorem writeDecodedHex_cases {digits : List UInt8} {count : ℕ} (h : digits.length = 2 * count) :
    (∃ bytes, bytes.length = count ∧ digits = lowerHex bytes) ∨
    ∀ (index : ℕ) (cursor : WriteCursor), cursor.index + count < addressLimit →
      cursor.index + count ≤ cursor.output.length →
      ∃ error cursor', error.isOutputTooSmall = false ∧
        writeDecodedHex index digits cursor = .error (.error error) cursor' := by
  induction count generalizing digits with
  | zero =>
    obtain rfl := List.length_eq_zero_iff.mp h
    exact .inl ⟨[], rfl, rfl⟩
  | succ count ih =>
    match digits, h with
    | first :: second :: digits, h =>
      have hlen : digits.length = 2 * count := by
        simp only [List.length_cons] at h
        omega
      -- the loop reads two characters and fails at the first that is not a digit
      rcases decodeNibble_cases first with ⟨high, hhigh, rfl⟩ | hfail
      · rcases decodeNibble_cases second with ⟨low, hlow, rfl⟩ | hfail
        · rcases ih hlen with ⟨bytes, rfl, rfl⟩ | hrest
          · refine .inl ⟨((high <<< 4) ||| low) :: bytes, rfl, ?_⟩
            show _ = hexPair ((high <<< 4) ||| low) ++ lowerHex bytes
            rw [hexPair_nibbles hhigh hlow]
            rfl
          · right
            intro index cursor hlimit hroom
            have hwrite := writes_writeArray (ε := NostrError) [(high <<< 4) ||| low] cursor
              (by simp only [List.length_singleton]; omega)
              (by simp only [List.length_singleton]; omega)
            obtain ⟨error, cursor', hkind, hrun⟩ := hrest (index + 1)
              (cursor.writeArray [(high <<< 4) ||| low])
              (by simp only [WriteCursor.writeArray, List.length_singleton]; omega)
              (by
                simp only [WriteCursor.writeArray, List.length_append, List.length_take,
                  List.length_drop, List.length_singleton]
                omega)
            refine ⟨error, cursor', hkind, ?_⟩
            rw [writeDecodedHex, Outcome.lift_bind (decodeNibble_hexDigit hhigh _),
              Outcome.lift_bind (decodeNibble_hexDigit hlow _)]
            show EStateM.bind (writeU8 _) _ cursor = _
            rw [EStateM.bind, writeU8, hwrite]
            exact hrun
        · right
          intro index cursor _ _
          obtain ⟨error, hkind, herror⟩ := hfail (index * 2 + 1)
          refine ⟨error, cursor, hkind, ?_⟩
          rw [writeDecodedHex, Outcome.lift_bind (decodeNibble_hexDigit hhigh _), herror]
          rfl
      · right
        intro index cursor _ _
        obtain ⟨error, hkind, herror⟩ := hfail (index * 2)
        refine ⟨error, cursor, hkind, ?_⟩
        rw [writeDecodedHex, herror]
        rfl

/-- The digits of a byte string are decoded to it. -/
theorem decodeLowerHex_eq {text : String} {bytes out : List UInt8}
    (htext : asBytes text = lowerHex bytes) (hlimit : bytes.length < addressLimit)
    (hroom : bytes.length ≤ out.length) :
    decodeLowerHex text out = .ok (bytes.length, bytes ++ out.drop bytes.length) := by
  have hlen := length_lowerHex bytes
  have hneeded : (asBytes text).length / 2 = bytes.length := by
    rw [htext, hlen]
    omega
  have hwrite := (writes_writeDecodedHex bytes 0).runOn hlimit hroom
  rw [← htext] at hwrite
  have heven : ¬(asBytes text).length % 2 ≠ 0 := by
    rw [htext, hlen]
    omega
  rw [decodeLowerHex]
  simp only [hneeded]
  rw [Outcome.bind_eq (rejectIf_eq_ok heven), Outcome.bind_eq (rejectIf_eq_ok (not_lt.mpr hroom)),
    Outcome.bind_eq hwrite]
  rfl

/-- Only the digits of a byte string are decoded. -/
theorem ends_decodeLowerHex (text : String) {out : List UInt8} (hlimit : out.length < addressLimit) :
    Ends (decodeLowerHex text out) fun decoded => ∃ bytes, asBytes text = lowerHex bytes ∧
      bytes.length ≤ out.length ∧ decoded = (bytes.length, bytes ++ out.drop bytes.length) := by
  unfold decodeLowerHex
  refine (ends_rejectIf _ _).bind fun _ heven => ?_
  refine (ends_rejectIf _ _).bind fun _ hroom => ?_
  have hlen : (asBytes text).length = 2 * ((asBytes text).length / 2) := by omega
  rcases writeDecodedHex_cases hlen with ⟨bytes, hbytes, htext⟩ | hfail
  · have hfits : bytes.length ≤ out.length := hbytes ▸ not_lt.mp hroom
    have hwrite := (writes_writeDecodedHex bytes 0).runOn (by omega) hfits
    rw [htext, Outcome.bind_eq hwrite, ← htext, ← hbytes]
    exact ⟨bytes, htext, hfits, rfl⟩
  · obtain ⟨error, cursor, -, hrun⟩ := hfail 0 (WriteCursor.new out)
      (by simp only [WriteCursor.new]; omega) (by simp only [WriteCursor.new]; omega)
    rw [WriterM.runOn, hrun]
    exact trivial

/-- With room for the result, something else is wrong with a text that is not decoded. -/
theorem reports_decodeLowerHex {text : String} {out : List UInt8}
    (hlimit : out.length < addressLimit) (hroom : (asBytes text).length / 2 ≤ out.length) :
    Reports (decodeLowerHex text out) fun error => error.isOutputTooSmall = false := by
  unfold decodeLowerHex
  apply Reports.bind
  · exact reports_rejectIf rfl
  intro _ heven
  rw [Outcome.bind_eq (rejectIf_eq_ok (not_lt.mpr hroom))]
  have heven := rejectIf_eq_ok_iff.mp heven
  have hlen : (asBytes text).length = 2 * ((asBytes text).length / 2) := by omega
  apply Reports.bind
  · intro error herror
    rcases writeDecodedHex_cases hlen with ⟨bytes, hbytes, htext⟩ | hfail
    · have hwrite := (writes_writeDecodedHex bytes 0).runOn (by omega) (hbytes ▸ hroom)
      rw [htext, hwrite] at herror
      cases herror
    · obtain ⟨error', cursor, hkind, hrun⟩ := hfail 0 (WriteCursor.new out)
        (by simp only [WriteCursor.new]; omega) (by simp only [WriteCursor.new]; omega)
      rw [WriterM.runOn, hrun] at herror
      cases herror
      exact hkind
  · exact fun _ _ => reports_ok _ _

/-- The room is looked at before the digits are. -/
theorem decodeLowerHex_short {text : String} {out : List UInt8} (heven : (asBytes text).length % 2 = 0)
    (hshort : out.length < (asBytes text).length / 2) :
    decodeLowerHex text out = fail (.outputTooSmall ((asBytes text).length / 2) out.length) := by
  rw [decodeLowerHex, Outcome.bind_eq (rejectIf_eq_ok (not_not.mpr heven))]
  simp only [rejectIf_eq_fail hshort]
  rfl

/-- More room is asked for when the result would not fit. -/
theorem short_of_decodeLowerHex {text : String} {out : List UInt8} (hlimit : out.length < addressLimit) :
    Reports (decodeLowerHex text out) fun error => error.isOutputTooSmall = true →
      (asBytes text).length % 2 = 0 ∧ out.length < (asBytes text).length / 2 := by
  intro error herror hsmall
  by_cases hroom : (asBytes text).length / 2 ≤ out.length
  · rw [reports_decodeLowerHex hlimit hroom error herror] at hsmall
    cases hsmall
  · by_cases heven : (asBytes text).length % 2 = 0
    · exact ⟨heven, not_le.mp hroom⟩
    · rw [decodeLowerHex, rejectIf_eq_fail heven] at herror
      cases herror
      cases hsmall

/-- The digits of a value decode to it. -/
theorem decodeFixedLowerHex_eq {n : ℕ} (value : ByteArrayN n) {text : String}
    (htext : asBytes text = lowerHex value.toList) (hn : n < addressLimit) :
    decodeFixedLowerHex n text = .ok value := by
  have hvalue : value.toList.length = n := value.toList_length
  have hlen : ¬(asBytes text).length ≠ n * 2 := by
    rw [htext, length_lowerHex, hvalue]
    exact not_not.mpr rfl
  have hroom : value.toList.length ≤ (List.replicate n (0 : UInt8)).length := by
    rw [hvalue, List.length_replicate]
  have hdecode := decodeLowerHex_eq htext (by rwa [hvalue]) hroom
  have hdrop : (List.replicate n (0 : UInt8)).drop value.toList.length = [] := by
    rw [hvalue, List.drop_eq_nil_iff, List.length_replicate]
  rw [hdrop, List.append_nil] at hdecode
  rw [decodeFixedLowerHex]
  simp only
  rw [Outcome.bind_eq (rejectIf_eq_ok hlen), Outcome.bind_eq hdecode]
  simp only
  rw [toArray, dif_pos hvalue]
  rfl

/-- A text that decodes has the digits of the value. -/
theorem ends_decodeFixedLowerHex {n : ℕ} (hn : n < addressLimit) (text : String) :
    Ends (decodeFixedLowerHex n text) fun value => asBytes text = lowerHex value.toList := by
  unfold decodeFixedLowerHex
  refine (ends_rejectIf _ _).bind fun _ hlen => ?_
  have hreplicate : (List.replicate n (0 : UInt8)).length < addressLimit := by
    rwa [List.length_replicate]
  apply (ends_decodeLowerHex text hreplicate).bind
  rintro _ ⟨bytes, htext, hfits, rfl⟩
  have hbytes : bytes.length = n := by
    rw [htext, length_lowerHex] at hlen
    omega
  have hdrop : (List.replicate n (0 : UInt8)).drop bytes.length = [] := by
    rw [hbytes, List.drop_eq_nil_iff, List.length_replicate]
  simp only [hdrop, List.append_nil]
  rw [toArray, dif_pos hbytes]
  exact htext

/-- The text spells the array. -/
theorem decodeFixedLowerHex_eq_ok_iff {n : ℕ} (hn : n < addressLimit) {value : String}
    {bytes : ByteArrayN n} :
    decodeFixedLowerHex n value = .ok bytes ↔ asBytes value = lowerHex bytes.toList := by
  constructor
  · exact fun h => (ends_decodeFixedLowerHex hn value).of_ok h
  · exact fun h => decodeFixedLowerHex_eq bytes h hn

/-! ## Event ids -/

/-- The bytes of the canonical serialization. -/
def canonicalBytes (event : NostrUnsignedEvent) : List UInt8 :=
  [0x5b] ++ ([0x30] ++ ([0x2c] ++ (jsonString controlEscape (hexText event.pubkey.bytes.toList) ++
    ([0x2c] ++ (decimal event.createdAt.toNat ++ ([0x2c] ++ (decimal event.kind.toNat ++
    ([0x2c] ++ (jsonRows controlEscape (event.tags.map NostrTagRef.values) ++
    ([0x2c] ++ (jsonString controlEscape event.content ++ [0x5d])))))))))))

section

variable {σ : Type} {P : EStateM (Fault NostrError) σ Unit → List UInt8 → Prop}
  {write : List UInt8 → EStateM (Fault NostrError) σ Unit}

/-- A number is written in decimal digits. -/
theorem emits_writeU64 (h : Emits P write) (value : UInt64) :
    P (writeU64 write value) (decimal value.toNat) := by
  unfold writeU64
  split_ifs with hzero
  · subst hzero
    exact h.write _
  · have hne : value.toNat ≠ 0 := fun hvalue => hzero (UInt64.toNat_inj.mp hvalue)
    have hlt : value.toNat < 10 ^ 20 := value.toNat_lt.trans (by norm_num)
    have hdigits : (digitsWhile 20 value.toNat [] : Outcome NostrError (List UInt8)) =
        .ok ((Nat.digits 10 value.toNat).map lastDigit).reverse := by
      rw [digitsWhile_eq hlt, List.append_nil]
    rw [Outcome.lift_bind hdigits, decimal, if_neg hne]
    exact h.write _

/-- **The serialization writes the same bytes to every sink.** -/
theorem emits_writeCanonicalTo (h : Emits P write) (event : NostrUnsignedEvent) :
    P (writeCanonicalTo write event) (canonicalBytes event) := by
  have hescape : ∀ character, P (writeControlEscape write character) (controlEscape character) :=
    fun character => h.write _
  have hhex := encodeLowerHex_vector event.pubkey.bytes (by decide)
  have hkind : (UInt64.ofNat event.kind.toNat).toNat = event.kind.toNat := by
    have hlt := event.kind.toNat_lt
    rw [UInt64.toNat_ofNat', Nat.mod_eq_of_lt (by omega)]
  have hkindWrites := emits_writeU64 h (UInt64.ofNat event.kind.toNat)
  rw [hkind] at hkindWrites
  rw [writeCanonicalTo, NostrPublicKey.writeHex, Outcome.lift_bind hhex]
  refine h.bind (h.write _) (h.bind (h.write _) (h.bind (h.write _) ?_))
  refine h.bind (h.writeJsonString hescape _) (h.bind (h.write _) ?_)
  refine h.bind (emits_writeU64 h _) (h.bind (h.write _) ?_)
  refine h.bind hkindWrites (h.bind (h.write _) ?_)
  refine h.bind (h.writeRows hescape _) (h.bind (h.write _) ?_)
  exact h.bind (h.writeJsonString hescape _) (h.write _)

end

/-- A program that feeds `bytes` to the hasher. -/
def Hashes (program : EStateM (Fault NostrError) (List UInt8) Unit) (bytes : List UInt8) : Prop :=
  ∀ hashed, program hashed = .ok () (hashed ++ bytes)

/-- Hashing is a way to write. -/
theorem emits_hashWrite : Emits Hashes hashWrite where
  nil hashed := by rw [List.append_nil]; rfl
  bind := by
    intro first second a b hfirst hsecond hashed
    show EStateM.bind first (fun _ => second) hashed = _
    rw [EStateM.bind, hfirst]
    simp only
    rw [hsecond, List.append_assoc]
  write bytes hashed := rfl

variable {sha256 : List UInt8 → ByteArrayN 32} {schnorr : Schnorr}

/-- Every event has an id, the hash of its serialization. -/
theorem eventId_eq (event : NostrUnsignedEvent) :
    eventId sha256 event = .ok ⟨sha256 (canonicalBytes event)⟩ := by
  rw [eventId, emits_writeCanonicalTo emits_hashWrite event, List.nil_append]

/-! ## Signatures -/

/-- What is relied on of the signatures: a key signs, and verification accepts what the matching key
signed. -/
structure Schnorr.Accepts (schnorr : Schnorr) : Prop where
  signs : ∀ (key : schnorr.SigningKey) (message : ByteArrayN 32),
    ∃ signature, schnorr.signRaw key message deterministicAuxRand = some signature
  verifies : ∀ (key : schnorr.SigningKey) (message auxRand : ByteArrayN 32)
    (signature : ByteArrayN 64), schnorr.signRaw key message auxRand = some signature →
    ∃ verifyingKey parsed,
      schnorr.verifyingKeyFromSlice (schnorr.verifyingKeyBytes key) = some verifyingKey ∧
      schnorr.signatureFromSlice signature = some parsed ∧
      schnorr.verifyRaw verifyingKey message parsed = true

/-- A secret that the library takes is a key. -/
theorem signingKey_eq {secret : NostrSecretKey} {key : schnorr.SigningKey}
    (h : schnorr.signingKeyFromSlice secret.bytes = some key) :
    signingKey schnorr secret = .ok key := by
  rw [signingKey, h]

/-- An event that is signed with its own key is verified. -/
theorem exists_signEvent (hschnorr : schnorr.Accepts) {secret : NostrSecretKey}
    {key : schnorr.SigningKey} (hkey : schnorr.signingKeyFromSlice secret.bytes = some key)
    {event : NostrUnsignedEvent} (hpubkey : event.pubkey = publicKeyFromSigningKey schnorr key)
    (hcontent : (asBytes event.content).length ≤ hyfNostrMaxContentChars) :
    ∃ signed, signEvent sha256 schnorr event secret = .ok signed ∧ signed.unsigned = event ∧
      verifyEvent sha256 schnorr signed = .ok () := by
  obtain ⟨signature, hsign⟩ := hschnorr.signs key (sha256 (canonicalBytes event))
  obtain ⟨verifyingKey, parsed, hverifying, hparsed, hverify⟩ :=
    hschnorr.verifies key _ _ signature hsign
  refine ⟨⟨⟨sha256 (canonicalBytes event)⟩, event.pubkey, event.createdAt, event.kind, event.tags,
    event.content, ⟨signature⟩⟩, ?_, rfl, ?_⟩
  · rw [signEvent, Outcome.bind_eq (signingKey_eq hkey)]
    simp only
    rw [Outcome.bind_eq (rejectIf_eq_ok (not_not.mpr hpubkey)), Outcome.bind_eq (eventId_eq event)]
    simp only [hsign]
    rw [NostrEvent.new, validateContentLen,
      Outcome.bind_eq (rejectIf_eq_ok (not_lt.mpr hcontent))]
    rfl
  · have hunsigned : NostrEvent.unsigned ⟨⟨sha256 (canonicalBytes event)⟩, event.pubkey,
        event.createdAt, event.kind, event.tags, event.content, ⟨signature⟩⟩ = event := rfl
    rw [verifyEvent, hunsigned, Outcome.bind_eq (eventId_eq event),
      Outcome.bind_eq (rejectIf_eq_ok (not_not.mpr rfl))]
    simp only [hpubkey, publicKeyFromSigningKey, hverifying, hparsed, hverify]
    exact rejectIf_eq_ok (by simp)

/-- `verify_event` does not panic. -/
theorem ends_verifyEvent (sha256 : List UInt8 → ByteArrayN 32) (schnorr : Schnorr)
    (event : NostrEvent) : Ends (verifyEvent sha256 schnorr event) fun _ => True := by
  rw [verifyEvent, Outcome.bind_eq (eventId_eq event.unsigned)]
  refine (ends_rejectIf _ _).bind fun _ _ => ?_
  split
  · exact trivial
  · split
    · exact trivial
    · exact (ends_rejectIf _ _).mono fun _ _ => trivial

/-- `derive_nostr_public_key` does not panic. -/
theorem ends_deriveNostrPublicKey (secret : NostrSecretKey) :
    Ends (deriveNostrPublicKey schnorr secret) fun _ => True := by
  unfold deriveNostrPublicKey signingKey
  split
  · exact trivial
  · exact trivial

/-- `sign_event` does not panic. -/
theorem ends_signEvent (unsigned : NostrUnsignedEvent) (secret : NostrSecretKey) :
    Ends (signEvent sha256 schnorr unsigned secret) fun _ => True := by
  unfold signEvent signingKey
  split
  · refine (ends_rejectIf _ _).bind fun _ _ => ?_
    rw [Outcome.bind_eq (eventId_eq unsigned)]
    split
    · exact trivial
    · exact (ends_rejectIf _ _).bind fun _ _ => trivial
  · exact trivial

/-- An event that is not verified is never one that does not fit. -/
theorem reports_verifyEvent (event : NostrEvent) :
    Reports (verifyEvent sha256 schnorr event) fun error => error.isOutputTooSmall = false := by
  rw [verifyEvent, Outcome.bind_eq (eventId_eq event.unsigned)]
  apply Reports.bind
  · exact reports_rejectIf rfl
  intro _ _
  split
  · exact reports_fail rfl
  · split
    · exact reports_fail rfl
    · exact reports_rejectIf rfl

end Hyf.Nostr
