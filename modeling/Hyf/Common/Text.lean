import Hyf.Common.ByteCodec

/-!
# Texts and their bytes

A `&str` of the source is a `String`: a byte string with the proof that it is UTF-8. The bytes of a
text are those it was read from, and bytes below 128 are always a text.
-/

namespace ByteCodec

/-- `str::as_bytes`. -/
def asBytes (text : String) : List UInt8 := text.toByteArray.data.toList

/-- `core::str::from_utf8`. -/
def fromUtf8 (bytes : List UInt8) : Option String :=
  if h : (ByteArray.mk bytes.toArray).IsValidUTF8 then some (.ofByteArray _ h) else none

/-- A text that bytes were decoded to has these bytes. -/
theorem asBytes_fromUtf8 {bytes : List UInt8} {text : String} (h : fromUtf8 bytes = some text) :
    asBytes text = bytes := by
  unfold fromUtf8 at h
  split_ifs at h
  cases h
  rfl

/-- A character below 128 is its own encoding. -/
theorem utf8EncodeChar_ofNat (byte : UInt8) : byte < 128 →
    String.utf8EncodeChar (Char.ofNat byte.toNat) = [byte] := by
  revert byte
  apply forall_byte
  decide

/-! ## The characters of a text -/

/-- The encoding of a list of characters. -/
def utf8Bytes (characters : List Char) : List UInt8 := characters.flatMap String.utf8EncodeChar

/-- The bytes of the first character come first. -/
theorem utf8Bytes_cons (c : Char) (characters : List Char) :
    utf8Bytes (c :: characters) = String.utf8EncodeChar c ++ utf8Bytes characters := by
  rw [utf8Bytes, List.flatMap_cons, ← utf8Bytes]

/-- The bytes of a concatenation are concatenated. -/
theorem utf8Bytes_append (first second : List Char) :
    utf8Bytes (first ++ second) = utf8Bytes first ++ utf8Bytes second := by
  rw [utf8Bytes, List.flatMap_append, ← utf8Bytes, ← utf8Bytes]

/-- The bytes that are stored for a string are the ones of its characters. -/
theorem byteArray_ofList (characters : List Char) :
    (String.ofList characters).toByteArray = .mk (utf8Bytes characters).toArray := by
  rw [String.toByteArray_ofList, List.utf8Encode, ← utf8Bytes]
  apply ByteArray.ext
  simp

/-- The bytes of a string that is made of characters. -/
theorem asBytes_ofList (characters : List Char) :
    asBytes (String.ofList characters) = utf8Bytes characters := by
  rw [asBytes, byteArray_ofList]

/-- The bytes of a text are the ones of its characters. -/
theorem asBytes_eq (text : String) : asBytes text = utf8Bytes text.toList := by
  rw [← asBytes_ofList, String.ofList_toList]

/-- The bytes of characters decode to these characters. -/
theorem fromUtf8_utf8Bytes (characters : List Char) :
    fromUtf8 (utf8Bytes characters) = some (String.ofList characters) := by
  have hvalid : (ByteArray.mk (utf8Bytes characters).toArray).IsValidUTF8 := by
    rw [← byteArray_ofList]
    exact (String.ofList characters).isValidUTF8
  rw [fromUtf8, dif_pos hvalid, Option.some.injEq, ← String.toByteArray_inj, byteArray_ofList]

/-- The bytes of a text decode to it. -/
theorem fromUtf8_asBytes (text : String) : fromUtf8 (asBytes text) = some text := by
  rw [asBytes_eq, fromUtf8_utf8Bytes, String.ofList_toList]

/-- Bytes below 128 are the encoding of their characters. -/
theorem utf8Bytes_map_ofNat {bytes : List UInt8} (h : ∀ byte ∈ bytes, byte < 128) :
    utf8Bytes (bytes.map fun byte => Char.ofNat byte.toNat) = bytes := by
  induction bytes with
  | nil => rfl
  | cons byte bytes ih =>
    rw [List.forall_mem_cons] at h
    rw [List.map_cons, utf8Bytes_cons, utf8EncodeChar_ofNat byte h.1, ih h.2, List.singleton_append]

/-- Bytes below 128 decode to a character each. -/
theorem fromUtf8_ascii {bytes : List UInt8} (h : ∀ byte ∈ bytes, byte < 128) :
    fromUtf8 bytes = some (String.ofList (bytes.map fun byte => Char.ofNat byte.toNat)) := by
  rw [← fromUtf8_utf8Bytes, utf8Bytes_map_ofNat h]

/-- Characters are determined by their bytes. -/
theorem utf8Bytes_injective {first second : List Char} (h : utf8Bytes first = utf8Bytes second) :
    first = second := by
  have htexts := congrArg fromUtf8 h
  rw [fromUtf8_utf8Bytes, fromUtf8_utf8Bytes, Option.some.injEq] at htexts
  rwa [String.ofList_inj] at htexts

/-- The first byte of a character tells whether it is below 128. -/
theorem utf8EncodeChar_cases (c : Char) :
    (c.toNat < 128 ∧ String.utf8EncodeChar c = [UInt8.ofNat c.toNat]) ∨
    (128 ≤ c.toNat ∧ ∃ byte tail, 128 ≤ byte ∧ String.utf8EncodeChar c = byte :: tail) := by
  have hand : ∀ byte : UInt8, (128 : UInt8) ≤ byte &&& 0x1f ||| 0xc0 ∧
      (128 : UInt8) ≤ byte &&& 0x0f ||| 0xe0 ∧ (128 : UInt8) ≤ byte &&& 0x07 ||| 0xf0 := by
    apply forall_byte
    decide
  by_cases hlt : c.toNat < 128
  · have hsize : c.utf8Size = 1 := by
      rw [Char.utf8Size_eq_one_iff, UInt32.le_iff_toNat_le]
      exact Nat.le_of_lt_succ hlt
    exact .inl ⟨hlt, String.utf8EncodeChar_eq_singleton hsize⟩
  · refine .inr ⟨not_lt.mp hlt, ?_⟩
    obtain hsize | hsize | hsize | hsize := c.utf8Size_eq
    · rw [Char.utf8Size_eq_one_iff, UInt32.le_iff_toNat_le] at hsize
      exact absurd (Nat.lt_succ_of_le hsize) hlt
    · exact ⟨_, _, (hand _).1, String.utf8EncodeChar_eq_cons_cons hsize⟩
    · exact ⟨_, _, (hand _).2.1, String.utf8EncodeChar_eq_cons_cons_cons hsize⟩
    · exact ⟨_, _, (hand _).2.2, String.utf8EncodeChar_eq_cons_cons_cons_cons hsize⟩

/-- A byte below 128 at the front is a character. -/
theorem utf8Bytes_eq_cons {characters : List Char} {byte : UInt8} {rest : List UInt8}
    (hbyte : byte < 128) (h : utf8Bytes characters = byte :: rest) :
    ∃ tail, characters = Char.ofNat byte.toNat :: tail ∧ rest = utf8Bytes tail := by
  cases characters with
  | nil => cases h
  | cons c tail =>
    rw [utf8Bytes_cons] at h
    obtain ⟨hlt, hc⟩ | ⟨-, first, bytes, hfirst, hc⟩ := utf8EncodeChar_cases c
    · rw [hc, List.singleton_append, List.cons.injEq] at h
      have hnat : byte.toNat = c.toNat := by
        rw [← h.1, UInt8.toNat_ofNat', Nat.mod_eq_of_lt (by omega)]
      exact ⟨tail, by rw [hnat, Char.ofNat_toNat], h.2.symm⟩
    · rw [hc, List.cons_append, List.cons.injEq] at h
      rw [h.1] at hfirst
      exact absurd hbyte (UInt8.not_lt.mpr hfirst)

end ByteCodec
