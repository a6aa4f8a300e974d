import Hyf.Nostr.EventTheorems

/-!
# One spelling for every byte string (`hyf_link_nostr`)

The decoder accepts the pairs of lower-case digits and nothing else, and these are exactly the texts
that the encoder writes. So the two are inverse to each other, and two texts that are accepted for the
same bytes are the same text.
-/

namespace Hyf.Nostr

open ByteCodec WriterM

def IsLowerHexDigit (byte : UInt8) : Prop :=
  (0x30 ≤ byte ∧ byte ≤ 0x39) ∨ (0x61 ≤ byte ∧ byte ≤ 0x66)

/-- The bytes of the text are pairs of digits. -/
structure IsLowerHex (text : String) : Prop where
  even : (asBytes text).length % 2 = 0
  digits : ∀ digit ∈ asBytes text, IsLowerHexDigit digit

theorem isLowerHexDigit_iff (byte : UInt8) :
    IsLowerHexDigit byte ↔ ∃ nibble < 16, byte = hexDigit nibble := by
  constructor
  · intro hdigit
    obtain hnibble | hfail := decodeNibble_cases byte
    · exact hnibble
    · -- a digit is not refused
      obtain ⟨error, -, herror⟩ := hfail 0
      obtain hnumber | hletter := hdigit
      · rw [decodeNibble, if_pos hnumber] at herror
        cases herror
      · by_cases hnumber : 0x30 ≤ byte ∧ byte ≤ 0x39
        · rw [decodeNibble, if_pos hnumber] at herror
          cases herror
        · rw [decodeNibble, if_neg hnumber, if_pos hletter] at herror
          cases herror
  · rintro ⟨nibble, hlt, rfl⟩
    have hdigits : ∀ nibble : Fin 16, IsLowerHexDigit (hexDigit (UInt8.ofNat nibble)) := by
      unfold IsLowerHexDigit
      decide
    have hdigit := hdigits ⟨nibble.toNat, hlt⟩
    rwa [UInt8.ofNat_toNat] at hdigit

theorem isLowerHexDigit_lowerHex (bytes : List UInt8) :
    ∀ digit ∈ lowerHex bytes, IsLowerHexDigit digit := by
  intro digit hdigit
  obtain ⟨byte, -, hpair⟩ := List.mem_flatMap.mp hdigit
  obtain ⟨hhigh, hlow, -⟩ := nibble_lt byte
  rw [isLowerHexDigit_iff]
  obtain rfl | hrest := List.mem_cons.mp hpair
  · exact ⟨_, hhigh, rfl⟩
  · obtain rfl := List.mem_singleton.mp hrest
    exact ⟨_, hlow, rfl⟩

/-- Pairs of digits are the digits of a byte string. -/
theorem exists_lowerHex {digits : List UInt8} {count : ℕ} (hlen : digits.length = 2 * count)
    (h : ∀ digit ∈ digits, IsLowerHexDigit digit) : ∃ bytes, digits = lowerHex bytes := by
  induction count generalizing digits with
  | zero => exact ⟨[], List.length_eq_zero_iff.mp hlen⟩
  | succ count ih =>
    obtain ⟨first, tail, rfl⟩ := List.exists_cons_of_length_eq_add_one hlen
    have htail : tail.length = 2 * count + 1 := Nat.succ_injective hlen
    obtain ⟨second, digits, rfl⟩ := List.exists_cons_of_length_eq_add_one htail
    rw [List.forall_mem_cons, List.forall_mem_cons, isLowerHexDigit_iff, isLowerHexDigit_iff] at h
    obtain ⟨⟨high, hhigh, rfl⟩, ⟨low, hlow, rfl⟩, hrest⟩ := h
    obtain ⟨bytes, rfl⟩ := ih (Nat.succ_injective htail) hrest
    refine ⟨((high <<< 4) ||| low) :: bytes, ?_⟩
    rw [lowerHex, lowerHex, List.flatMap_cons, hexPair_nibbles hhigh hlow]
    rfl

theorem isLowerHex_iff (text : String) : IsLowerHex text ↔ ∃ bytes, asBytes text = lowerHex bytes := by
  constructor
  · intro h
    have hlen : (asBytes text).length = 2 * ((asBytes text).length / 2) := by
      have heven := h.even
      omega
    exact exists_lowerHex hlen h.digits
  · rintro ⟨bytes, htext⟩
    refine ⟨?_, htext ▸ isLowerHexDigit_lowerHex bytes⟩
    rw [htext, length_lowerHex, Nat.mul_mod_left]

/-! ## Encoding and decoding -/

/-- What the encoder writes are digits, which are decoded to the bytes they were written from. -/
theorem encodeLowerHex_decodes {bytes out : List UInt8} (hlimit : out.length < addressLimit)
    (hroom : bytes.length * 2 ≤ out.length) : ∃ text,
    encodeLowerHex bytes out = .ok (text, asBytes text ++ out.drop (bytes.length * 2)) ∧
    (asBytes text).length = 2 * bytes.length ∧ (∀ digit ∈ asBytes text, IsLowerHexDigit digit) ∧
    ∀ output : List UInt8, bytes.length ≤ output.length →
      decodeLowerHex text output = .ok (bytes.length, bytes ++ output.drop bytes.length) := by
  have htext := asBytes_hexText bytes
  refine ⟨hexText bytes, ?_, ?_, ?_, fun output hfits => ?_⟩
  · rw [encodeLowerHex_eq (by omega) hroom, htext]
  · rw [htext, length_lowerHex, Nat.mul_comm]
  · rw [htext]
    exact isLowerHexDigit_lowerHex bytes
  · exact decodeLowerHex_eq htext (by omega) hfits

/-- With room for the result, pairs of digits are accepted and nothing else. -/
theorem decodeLowerHex_accepts_iff {text : String} {out : List UInt8}
    (hlimit : out.length < addressLimit) (hroom : (asBytes text).length / 2 ≤ out.length) :
    (∃ decoded, decodeLowerHex text out = .ok decoded) ↔ IsLowerHex text := by
  rw [isLowerHex_iff]
  constructor
  · rintro ⟨decoded, hdecode⟩
    obtain ⟨bytes, htext, -⟩ := (ends_decodeLowerHex text hlimit).of_ok hdecode
    exact ⟨bytes, htext⟩
  · rintro ⟨bytes, htext⟩
    have hlen := length_lowerHex bytes
    rw [← htext] at hlen
    exact ⟨_, decodeLowerHex_eq htext (by omega) (by omega)⟩

/-- What was decoded is encoded to the text it was decoded from. -/
theorem encodeLowerHex_decoded {text : String} {out written : List UInt8} {len : ℕ}
    (hlimit : out.length < addressLimit) (h : decodeLowerHex text out = .ok (len, written))
    {output : List UInt8} (houtput : output.length < addressLimit)
    (hroom : (asBytes text).length ≤ output.length) :
    encodeLowerHex (written.take len) output =
      .ok (text, asBytes text ++ output.drop (asBytes text).length) := by
  obtain ⟨bytes, htext, -, heq⟩ := (ends_decodeLowerHex text hlimit).of_ok h
  obtain ⟨rfl, rfl⟩ := Prod.mk.inj heq
  have hlen := length_lowerHex bytes
  rw [← htext] at hlen
  have hspelled : hexText bytes = text := by
    rw [← Option.some_inj, ← fromUtf8_lowerHex, ← htext, fromUtf8_asBytes]
  rw [List.take_left, encodeLowerHex_eq (by omega) (by omega), hspelled, ← htext, hlen]

/-- An array is decoded from a text of its own length as the slice decoder does it. -/
theorem decodeFixedLowerHex_eq_decodeLowerHex_iff {n : ℕ} (hn : n < addressLimit) (text : String)
    (value : ByteArrayN n) : decodeFixedLowerHex n text = .ok value ↔
      (asBytes text).length = 2 * n ∧
      decodeLowerHex text (List.replicate n 0) = .ok (n, value.toList) := by
  have hvalue : value.toList.length = n := value.toList_length
  have hlimit : (List.replicate n (0 : UInt8)).length < addressLimit := by
    rwa [List.length_replicate]
  have hdrop : ∀ len, n = len → (List.replicate n (0 : UInt8)).drop len = [] := by
    intro len hlen
    rw [List.drop_eq_nil_iff, List.length_replicate, hlen]
  constructor
  · intro h
    have htext := (decodeFixedLowerHex_eq_ok_iff hn).mp h
    have hdecode := decodeLowerHex_eq htext (by omega)
      (show _ ≤ (List.replicate n (0 : UInt8)).length by rw [List.length_replicate, hvalue])
    rw [hdrop _ hvalue.symm, List.append_nil, hvalue] at hdecode
    refine ⟨?_, hdecode⟩
    rw [htext, length_lowerHex, hvalue, Nat.mul_comm]
  · rintro ⟨-, hdecode⟩
    obtain ⟨bytes, htext, -, heq⟩ := (ends_decodeLowerHex text hlimit).of_ok hdecode
    obtain ⟨hlen, hbytes⟩ := Prod.mk.inj heq
    rw [hdrop _ hlen, List.append_nil] at hbytes
    exact (decodeFixedLowerHex_eq_ok_iff hn).mpr (hbytes ▸ htext)

/-- **Lower-case hexadecimal is a bijection.** Every byte string is written as digits that decode to
it. A text is accepted if and only if it is made of pairs of digits, and the bytes it stands for are
written as that text and no other; the decoder of arrays accepts the texts of its length, with the
same result. -/
theorem lowerHex_bijection :
    (∀ bytes out : List UInt8, out.length < addressLimit → bytes.length * 2 ≤ out.length → ∃ text,
      encodeLowerHex bytes out = .ok (text, asBytes text ++ out.drop (bytes.length * 2)) ∧
      (asBytes text).length = 2 * bytes.length ∧ (∀ digit ∈ asBytes text, IsLowerHexDigit digit) ∧
      ∀ output : List UInt8, bytes.length ≤ output.length →
        decodeLowerHex text output = .ok (bytes.length, bytes ++ output.drop bytes.length)) ∧
    (∀ (text : String) (out : List UInt8), out.length < addressLimit →
      (asBytes text).length / 2 ≤ out.length →
      ((∃ decoded, decodeLowerHex text out = .ok decoded) ↔ IsLowerHex text) ∧
      ∀ len written, decodeLowerHex text out = .ok (len, written) →
        ∀ output : List UInt8, output.length < addressLimit →
          (asBytes text).length ≤ output.length →
          encodeLowerHex (written.take len) output =
            .ok (text, asBytes text ++ output.drop (asBytes text).length)) ∧
    ∀ (n : ℕ) (text : String), n < addressLimit →
      ((∃ value : ByteArrayN n, decodeFixedLowerHex n text = .ok value) ↔
        (asBytes text).length = 2 * n ∧ IsLowerHex text) ∧
      ∀ value : ByteArrayN n, decodeFixedLowerHex n text = .ok value ↔
        (asBytes text).length = 2 * n ∧
        decodeLowerHex text (List.replicate n 0) = .ok (n, value.toList) := by
  refine ⟨fun bytes out hlimit hroom => encodeLowerHex_decodes hlimit hroom,
    fun text out hlimit hroom => ⟨decodeLowerHex_accepts_iff hlimit hroom, ?_⟩,
    fun n text hn => ⟨?_, decodeFixedLowerHex_eq_decodeLowerHex_iff hn text⟩⟩
  · intro len written hdecode output houtput hfits
    exact encodeLowerHex_decoded hlimit hdecode houtput hfits
  · constructor
    · rintro ⟨value, hvalue⟩
      obtain ⟨hlen, -⟩ := (decodeFixedLowerHex_eq_decodeLowerHex_iff hn text value).mp hvalue
      have htext := (decodeFixedLowerHex_eq_ok_iff hn).mp hvalue
      exact ⟨hlen, (isLowerHex_iff text).mpr ⟨_, htext⟩⟩
    · rintro ⟨hlen, hdigits⟩
      obtain ⟨bytes, htext⟩ := (isLowerHex_iff text).mp hdigits
      rw [htext, length_lowerHex] at hlen
      have hbytes : bytes.length = n := by omega
      exact ⟨⟨bytes, hbytes⟩, (decodeFixedLowerHex_eq_ok_iff hn).mpr htext⟩

/-- Two bytes and their four digits. -/
theorem lowerHex_bijection_sample :
    (∃ text, encodeLowerHex [0x0a, 0xff] (List.replicate 5 1) = .ok (text, asBytes text ++ [1]) ∧
      decodeLowerHex text [0, 0] = .ok (2, [0x0a, 0xff])) ∧
    encodeLowerHex [0x0a, 0xff] (List.replicate 4 0) = .ok ("0aff", asBytes "0aff") ∧
    decodeFixedLowerHex 2 "0aff" = .ok ⟨[0x0a, 0xff], rfl⟩ := by
  obtain ⟨text, hencode, -, -, hdecode⟩ := lowerHex_bijection.1 [0x0a, 0xff] (List.replicate 5 1)
    (by decide) (by decide)
  have hread : decodeLowerHex "0aff" [0, 0] = .ok (2, [0x0a, 0xff]) := by decide
  have hspelled := (lowerHex_bijection.2.1 "0aff" [0, 0] (by decide) (by decide)).2 2 [0x0a, 0xff]
    hread (List.replicate 4 0) (by decide) (by decide)
  have hfixed := ((lowerHex_bijection.2.2 2 "0aff" (by decide)).2 ⟨[0x0a, 0xff], rfl⟩).mpr
    ⟨by decide, hread⟩
  exact ⟨⟨text, hencode, hdecode [0, 0] (by decide)⟩, hspelled, hfixed⟩

end Hyf.Nostr
