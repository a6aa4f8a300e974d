import Hyf.Rns.Crypto

/-!
# Padding (`hyf_rns_crypto`)

A text is filled up to whole blocks with bytes that say how many they are; a text of whole blocks gets
one block more. `padded` is the result, and the check on the way back accepts these texts and no other.
-/

namespace Hyf.Rns

open ByteCodec BufferM

def pkcs7BlockLen : ℕ := 16

/-- `a.checked_add(b).ok_or(RnsCryptoError::LengthOverflow)`. -/
def checkedLen (a b : ℕ) : Outcome RnsCryptoError ℕ :=
  match checkedAdd a b with
  | some len => .ok len
  | none => fail .lengthOverflow

/-- A sum that fits is a length. -/
theorem checkedLen_eq_ok {a b : ℕ} (h : a + b < addressLimit) : checkedLen a b = .ok (a + b) := by
  rw [checkedLen, checkedAdd_eq_some h]

/-- A sum that does not fit is an error. -/
theorem checkedLen_eq_fail {a b : ℕ} (h : ¬a + b < addressLimit) :
    checkedLen a b = fail .lengthOverflow := by
  rw [checkedLen, checkedAdd, if_neg h]

def pkcs7PaddedLen (inputLen : ℕ) : Outcome RnsCryptoError ℕ :=
  let paddingLen := pkcs7BlockLen - inputLen % pkcs7BlockLen
  checkedLen inputLen paddingLen

def pkcs7Pad (input : List UInt8) : BufferM RnsCryptoError ℕ := do
  let paddedLen ← (pkcs7PaddedLen input.length).lift
  let out ← get
  (rejectIf (out.length < paddedLen) (.outputBufferTooShort out.length paddedLen)).lift
  copyInto 0 input.length input
  let paddingLen ← (subUsize paddedLen input.length).lift
  fill input.length paddedLen (UInt8.ofNat paddingLen)
  return paddedLen

def pkcs7Unpad (input : List UInt8) : Outcome RnsCryptoError (List UInt8) := do
  rejectIf (input = [] ∨ input.length % pkcs7BlockLen ≠ 0) .invalidPadding
  let last ← byteAt input (input.length - 1)
  let paddingLen := last.toNat
  rejectIf (paddingLen = 0 ∨ paddingLen > pkcs7BlockLen ∨ paddingLen > input.length) .invalidPadding
  let paddingStart := input.length - paddingLen
  let padding ← slice input paddingStart input.length
  rejectIf (padding.any fun byte => byte.toNat ≠ paddingLen) .invalidPadding
  slice input 0 paddingStart

/-! ## Whole blocks -/

/-- The number of bytes that fill up the last block. -/
def paddingLen (inputLen : ℕ) : ℕ := 16 - inputLen % 16

/-- A text filled up to whole blocks. -/
def padded (input : List UInt8) : List UInt8 :=
  input ++ List.replicate (paddingLen input.length) (UInt8.ofNat (paddingLen input.length))

/-- Between one and 16 bytes are added. -/
theorem paddingLen_bounds (inputLen : ℕ) : 0 < paddingLen inputLen ∧ paddingLen inputLen ≤ 16 := by
  rw [paddingLen]
  omega

/-- Padding fills the next block. -/
theorem length_padded (input : List UInt8) :
    (padded input).length = 16 * (input.length / 16 + 1) := by
  rw [padded, List.length_append, List.length_replicate, paddingLen]
  omega

/-- The announced length is the one of the blocks. -/
theorem pkcs7PaddedLen_eq {inputLen : ℕ} (h : 16 * (inputLen / 16 + 1) < addressLimit) :
    pkcs7PaddedLen inputLen = .ok (16 * (inputLen / 16 + 1)) := by
  have hsum : inputLen + (pkcs7BlockLen - inputLen % pkcs7BlockLen) = 16 * (inputLen / 16 + 1) := by
    rw [pkcs7BlockLen]
    omega
  rw [pkcs7PaddedLen, checkedLen_eq_ok (hsum ▸ h), hsum]

/-- A length that does not fit is an error. -/
theorem pkcs7PaddedLen_eq_fail {inputLen : ℕ} (h : ¬16 * (inputLen / 16 + 1) < addressLimit) :
    pkcs7PaddedLen inputLen = fail .lengthOverflow := by
  have hsum : inputLen + (pkcs7BlockLen - inputLen % pkcs7BlockLen) = 16 * (inputLen / 16 + 1) := by
    rw [pkcs7BlockLen]
    omega
  exact checkedLen_eq_fail (hsum ▸ h)

/-- The text is padded into every output with room for it. -/
theorem pkcs7Pad_eq {input out : List UInt8} (hlimit : (padded input).length < addressLimit)
    (hroom : (padded input).length ≤ out.length) :
    pkcs7Pad input out =
      .ok (padded input).length (padded input ++ out.drop (padded input).length) := by
  have hlen := length_padded input
  have hpadding : (padded input).length - input.length = paddingLen input.length := by
    rw [padded, List.length_append, List.length_replicate, Nat.add_sub_cancel_left]
  have hle : input.length ≤ (padded input).length := by
    rw [padded, List.length_append]
    exact Nat.le_add_right _ _
  have hstop : (padded input).length = input.length + paddingLen input.length := by omega
  have hcopy := @run_copyInto_front RnsCryptoError _ _ _ rfl (hle.trans hroom)
  have hfill := @extends_fill RnsCryptoError input.length (paddingLen input.length) _
    (UInt8.ofNat (paddingLen input.length)) hstop input (out.drop input.length) rfl
    (by rw [List.length_replicate, List.length_drop]; omega)
  rw [List.drop_drop, List.length_replicate, ← hstop] at hfill
  rw [pkcs7Pad, Outcome.lift_bind (pkcs7PaddedLen_eq (hlen ▸ hlimit)), ← hlen, run_get_bind,
    Outcome.lift_bind (rejectIf_eq_ok (not_lt.mpr hroom)), run_bind_of_ok hcopy,
    Outcome.lift_bind (subUsize_eq_ok hle), hpadding, run_bind_of_ok hfill]
  rfl

/-- Padding succeeds where there is room, and leaves the rest of the buffer. -/
theorem pkcs7Pad_eq_ok_iff {input out out' : List UInt8} {len : ℕ} :
    pkcs7Pad input out = .ok len out' ↔
      (padded input).length < addressLimit ∧ (padded input).length ≤ out.length ∧
        len = (padded input).length ∧ out' = padded input ++ out.drop (padded input).length := by
  constructor
  · intro h
    by_cases hlimit : (padded input).length < addressLimit
    · by_cases hroom : (padded input).length ≤ out.length
      · rw [pkcs7Pad_eq hlimit hroom] at h
        cases h
        exact ⟨hlimit, hroom, rfl, rfl⟩
      · have hlen := pkcs7PaddedLen_eq (length_padded input ▸ hlimit)
        rw [length_padded] at hroom
        rw [pkcs7Pad, Outcome.lift_bind hlen, run_get_bind,
          Outcome.run_lift_bind_fail (rejectIf_eq_fail (not_le.mp hroom))] at h
        cases h
    · have hlen := pkcs7PaddedLen_eq_fail (length_padded input ▸ hlimit)
      rw [pkcs7Pad, Outcome.run_lift_bind_fail hlen] at h
      cases h
  · rintro ⟨hlimit, hroom, rfl, rfl⟩
    exact pkcs7Pad_eq hlimit hroom

/-! ## Removing the padding -/

/-- The last byte of a padded text is the number of bytes that were added. -/
theorem padded_eq_append_singleton (input : List UInt8) :
    padded input = input ++ List.replicate (paddingLen input.length - 1)
      (UInt8.ofNat (paddingLen input.length)) ++ [UInt8.ofNat (paddingLen input.length)] := by
  obtain ⟨hpos, -⟩ := paddingLen_bounds input.length
  rw [padded, List.append_assoc, ← List.replicate_succ', Nat.sub_add_cancel hpos]

/-- The number of added bytes fits in a byte. -/
theorem toNat_paddingLen (inputLen : ℕ) :
    (UInt8.ofNat (paddingLen inputLen)).toNat = paddingLen inputLen := by
  obtain ⟨-, hle⟩ := paddingLen_bounds inputLen
  rw [UInt8.toNat_ofNat', Nat.mod_eq_of_lt (by omega)]

/-- The padding is taken off a padded text. -/
theorem pkcs7Unpad_padded (input : List UInt8) : pkcs7Unpad (padded input) = .ok input := by
  obtain ⟨hpos, hle⟩ := paddingLen_bounds input.length
  have hlen := length_padded input
  have hsum : (padded input).length = input.length + paddingLen input.length := by
    rw [padded, List.length_append, List.length_replicate]
  have hblocks : ¬(padded input = [] ∨ (padded input).length % pkcs7BlockLen ≠ 0) := by
    rw [← List.length_eq_zero_iff, pkcs7BlockLen]
    omega
  have hlast : (byteAt (padded input) ((padded input).length - 1) : Outcome RnsCryptoError UInt8) =
      .ok (UInt8.ofNat (paddingLen input.length)) := by
    have hindex : (input ++ List.replicate (paddingLen input.length - 1)
        (UInt8.ofNat (paddingLen input.length))).length = (padded input).length - 1 := by
      rw [List.length_append, List.length_replicate]
      omega
    rw [← byteAt_append hindex, ← padded_eq_append_singleton]
  have hstart : (padded input).length - paddingLen input.length = input.length := by omega
  have hpadding : (slice (padded input) input.length (padded input).length :
      Outcome RnsCryptoError (List UInt8)) = .ok (List.replicate (paddingLen input.length)
        (UInt8.ofNat (paddingLen input.length))) := by
    have hslice := @slice_append RnsCryptoError input (List.replicate (paddingLen input.length)
      (UInt8.ofNat (paddingLen input.length))) [] _
      (padded input).length rfl (by rw [List.length_replicate, hsum])
    rwa [List.append_nil] at hslice
  have hinput : (slice (padded input) 0 input.length : Outcome RnsCryptoError (List UInt8)) =
      .ok input := slice_left rfl
  have hbounds : ¬(paddingLen input.length = 0 ∨ paddingLen input.length > pkcs7BlockLen ∨
      paddingLen input.length > (padded input).length) := by
    rw [pkcs7BlockLen]
    omega
  have hbytes : ¬((List.replicate (paddingLen input.length) (UInt8.ofNat (paddingLen input.length))).any
      fun byte => byte.toNat ≠ paddingLen input.length) = true := by
    rw [List.any_eq_true]
    rintro ⟨byte, hbyte, hne⟩
    rw [List.eq_of_mem_replicate hbyte, toNat_paddingLen] at hne
    simp at hne
  simp only [pkcs7Unpad, Outcome.bind_eq (rejectIf_eq_ok hblocks), Outcome.bind_eq hlast,
    toNat_paddingLen, Outcome.bind_eq (rejectIf_eq_ok hbounds), hstart, Outcome.bind_eq hpadding,
    Outcome.bind_eq (rejectIf_eq_ok hbytes), hinput]

/-- The check does not panic, and what it accepts is the padded form of what it returns. -/
theorem ends_pkcs7Unpad (bytes : List UInt8) :
    Ends (pkcs7Unpad bytes) fun input => bytes = padded input := by
  apply (ends_rejectIf _ _).bind
  intro _ hblocks
  rw [← List.length_eq_zero_iff, pkcs7BlockLen] at hblocks
  have hlast : bytes.length - 1 < bytes.length := by omega
  rw [Outcome.bind_eq (byteAt_eq_ok hlast)]
  apply (ends_rejectIf _ _).bind
  intro _ hbounds
  rw [pkcs7BlockLen] at hbounds
  apply (ends_slice (Nat.sub_le _ _) le_rfl).bind
  rintro padding rfl
  apply (ends_rejectIf _ _).bind
  intro _ hbytes
  apply (ends_slice (Nat.zero_le _) (Nat.sub_le _ _)).mono
  rintro input rfl
  -- the length of what is left decides the number of padding bytes
  generalize hcount : bytes[bytes.length - 1].toNat = count at hbounds hbytes ⊢
  have hinput : ((bytes.drop 0).take (bytes.length - count - 0)).length = bytes.length - count := by
    rw [List.length_take, List.length_drop]
    omega
  have hpadding : paddingLen (bytes.length - count) = count := by
    rw [paddingLen]
    omega
  have htake : bytes.length - (bytes.length - count) = count := by omega
  have hall : (bytes.drop (bytes.length - count)) = List.replicate count (UInt8.ofNat count) := by
    rw [List.eq_replicate_iff]
    refine ⟨by rw [List.length_drop, htake], ?_⟩
    intro byte hbyte
    have hne : ¬byte.toNat ≠ count := by
      intro hne
      apply hbytes
      rw [List.any_eq_true]
      refine ⟨byte, ?_, by simpa using hne⟩
      rwa [List.take_of_length_le (by rw [List.length_drop])]
    rw [← not_not.mp hne, UInt8.ofNat_toNat]
  rw [padded, hinput, hpadding, ← hall, List.drop_zero, Nat.sub_zero, List.take_append_drop]

/-- The only complaint is about the padding. -/
theorem reports_pkcs7Unpad (bytes : List UInt8) : Reports (pkcs7Unpad bytes) (· = .invalidPadding) := by
  refine Reports.bind (reports_rejectIf rfl) fun _ hblocks => ?_
  rw [rejectIf_eq_ok_iff, ← List.length_eq_zero_iff, pkcs7BlockLen] at hblocks
  have hlast : bytes.length - 1 < bytes.length := by omega
  rw [Outcome.bind_eq (byteAt_eq_ok hlast)]
  refine Reports.bind (reports_rejectIf rfl) fun _ _ => ?_
  refine Reports.bind (reports_of_ok (slice_drop (Nat.sub_le _ _)) _) fun _ _ => ?_
  refine Reports.bind (reports_rejectIf rfl) fun _ _ => ?_
  exact reports_of_ok (slice_take (Nat.sub_le _ _)) _

/-- The texts whose padding is accepted are the padded ones, and the text is given back. -/
theorem pkcs7Unpad_eq_ok_iff {bytes input : List UInt8} :
    pkcs7Unpad bytes = .ok input ↔ bytes = padded input := by
  constructor
  · exact (ends_pkcs7Unpad bytes).of_ok
  · rintro rfl
    exact pkcs7Unpad_padded input

/-- The padding that is accepted is the padding that is written. -/
theorem pkcs7Unpad_eq_ok_iff_pad {bytes input : List UInt8} (h : bytes.length < addressLimit) :
    pkcs7Unpad bytes = .ok input ↔
      ∃ out out', pkcs7Pad input out = .ok bytes.length out' ∧ out'.take bytes.length = bytes := by
  rw [pkcs7Unpad_eq_ok_iff]
  constructor
  · rintro rfl
    exact ⟨padded input, _, pkcs7Pad_eq h le_rfl, List.take_left⟩
  · rintro ⟨out, out', hpad, hbytes⟩
    obtain ⟨-, -, hlen, rfl⟩ := pkcs7Pad_eq_ok_iff.mp hpad
    rw [← hbytes, hlen, List.take_left]

end Hyf.Rns
