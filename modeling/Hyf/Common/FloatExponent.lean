import Mathlib.Data.Nat.Log
import Mathlib.Tactic.Ring

/-!
# Exponents of floats

A float is a mantissa and an exponent, and `totalExponent` is the position of its first binary digit.
Rounding moves that position up by at most one, and a division by a float with a fixed exponent by a
fixed amount more. A float whose position stays below a bound (`Below`) is packed with an exponent
field that is not all ones, which is to say that it is finite.
-/

namespace FloatExponent

open Float.Model UnpackedFloat

/-- A zero, or a number whose first digit is not above the position. -/
def Below (bound : ℤ) : UnpackedFloat → Prop
  | .zero _ => True
  | .finite _ mantissa exponent _ => totalExponent mantissa exponent ≤ bound
  | .infinity _ => False
  | .notANumber => False

/-- A bound may be raised. -/
theorem Below.mono {bound bound' : ℤ} {float : UnpackedFloat} (h : Below bound float)
    (hle : bound ≤ bound') : Below bound' float := by
  cases float with
  | infinity sign => exact h
  | notANumber => exact h
  | zero sign => exact h
  | finite sign mantissa exponent hmantissa => exact le_trans h hle

/-! ## Shifts -/

/-- A shift to the left raises the exponent of the number. -/
theorem log2_shiftLeft {mantissa : ℕ} (h : mantissa ≠ 0) (shift : ℕ) :
    (mantissa <<< shift).log2 = mantissa.log2 + shift := by
  induction shift with
  | zero => rfl
  | succ shift ih =>
    have hpos : mantissa <<< shift ≠ 0 := by
      rw [Nat.shiftLeft_eq]
      exact Nat.mul_ne_zero h (Nat.two_pow_pos shift).ne'
    rw [Nat.shiftLeft_succ, Nat.log2_two_mul hpos, ih, Nat.add_assoc]

/-- A shift that the exponent makes up for changes nothing. -/
theorem totalExponent_shiftLeft {mantissa : ℕ} (h : mantissa ≠ 0) (exponent : ℤ) (shift : ℕ) :
    totalExponent (mantissa <<< shift) (exponent - shift) = totalExponent mantissa exponent := by
  rw [totalExponent, totalExponent, log2_shiftLeft h]
  omega

/-- A quotient is not larger. -/
theorem totalExponent_div {mantissa divisor : ℕ} (exponent : ℤ) :
    totalExponent (mantissa / divisor) exponent ≤ totalExponent mantissa exponent := by
  have hlog : (mantissa / divisor).log2 ≤ mantissa.log2 := by
    rw [Nat.log2_eq_log_two, Nat.log2_eq_log_two]
    exact Nat.log_mono_right (Nat.div_le_self mantissa divisor)
  rw [totalExponent, totalExponent]
  omega

/-- Bits that are dropped do not move the first one. -/
theorem totalExponent_div_pow {mantissa shift : ℕ} (h : mantissa / 2 ^ shift ≠ 0) (exponent : ℤ) :
    totalExponent (mantissa / 2 ^ shift) (exponent + shift) = totalExponent mantissa exponent := by
  have hshift : shift ≤ mantissa.log2 := by
    rw [Nat.log2_eq_log_two]
    apply Nat.le_log_of_pow_le Nat.one_lt_two
    by_contra hlt
    exact h (Nat.div_eq_of_lt (not_le.mp hlt))
  have hlog : (mantissa / 2 ^ shift).log2 = mantissa.log2 - shift := by
    rw [Nat.log2_eq_log_two, Nat.log2_eq_log_two, Nat.log_div_base_pow]
  rw [totalExponent, totalExponent, hlog]
  omega

/-- A shift to the right divides the mantissa. -/
theorem mantissa_shiftRight (shift : ℕ) (extended : ExtendedMantissa) :
    (extended >>> shift).mantissa = extended.mantissa / 2 ^ shift := by
  induction shift with
  | zero => exact (Nat.div_one _).symm
  | succ shift ih =>
    have hstep : (extended >>> (shift + 1)).mantissa = (extended >>> shift).mantissa / 2 := rfl
    rw [hstep, ih, Nat.div_div_eq_div_mul, pow_succ]

/-- The accuracy is no part of the mantissa. -/
theorem mantissa_ofMantissaAndAccuracy (mantissa : ℕ) (accuracy : Accuracy) :
    (ExtendedMantissa.ofMantissaAndAccuracy mantissa accuracy).mantissa = mantissa := by
  cases accuracy with
  | exact => rfl
  | inexact order => cases order <;> rfl

/-- Rounding adds one at most. -/
theorem roundToNearestEven_le (mantissa : ℕ) (accuracy : Accuracy) :
    accuracy.roundToNearestEven mantissa ≤ mantissa + 1 := by
  cases accuracy with
  | exact => exact Nat.le_succ mantissa
  | inexact order =>
    cases order with
    | lt => exact Nat.le_succ mantissa
    | eq =>
      have hmod := Nat.mod_lt mantissa Nat.two_pos
      simp only [Accuracy.roundToNearestEven]
      omega
    | gt => exact le_rfl

/-- Rounding up may carry into a new first digit. -/
theorem log2_succ_le (mantissa : ℕ) : (mantissa + 1).log2 ≤ mantissa.log2 + 1 := by
  have hlt : mantissa + 1 < 2 ^ (mantissa.log2 + 2) := by
    have hself : mantissa < 2 ^ (mantissa.log2 + 1) := Nat.lt_log2_self
    have hpow : 2 ^ (mantissa.log2 + 2) = 2 * 2 ^ (mantissa.log2 + 1) := by ring
    have hpos : 1 < 2 ^ (mantissa.log2 + 1) := Nat.one_lt_two_pow (Nat.succ_ne_zero _)
    omega
  exact Nat.lt_succ_iff.mp ((Nat.log2_lt (Nat.succ_ne_zero _)).mpr hlt)

/-! ## Operations -/

/-- The exponent that a result is rounded to. -/
theorem targetExponent_eq (exponent : ℤ) :
    Format.binary64.targetExponent exponent = max (exponent - 53) (-1074) := rfl

/-- Both branches below a bound are below it. -/
theorem Below.dite {bound : ℤ} {condition : Prop} [Decidable condition]
    {float : condition → UnpackedFloat} {float' : ¬condition → UnpackedFloat}
    (h : ∀ holds, Below bound (float holds)) (h' : ∀ fails, Below bound (float' fails)) :
    Below bound (if holds : condition then float holds else float' holds) := by
  by_cases holds : condition
  · rw [dif_pos holds]
    exact h holds
  · rw [dif_neg holds]
    exact h' holds

/-- Rounding doubles at most. -/
theorem Below.roundWithAccuracy {mantissa : ℕ} {exponent bound : ℤ} (sign : Sign)
    (accuracy : Accuracy) (h : totalExponent mantissa exponent ≤ bound) (hbound : 0 ≤ bound) :
    Below (bound + 1)
      (UnpackedFloat.roundWithAccuracy Format.binary64 sign mantissa exponent accuracy) := by
  set target := Format.binary64.targetExponent (totalExponent mantissa exponent) with htarget
  set shift := (target - exponent).toNat with hshift
  set rounded := (ExtendedMantissa.ofMantissaAndAccuracy mantissa accuracy >>> shift).roundedMantissa
    with hrounded
  have hle : rounded ≤ mantissa / 2 ^ shift + 1 := by
    rw [hrounded, ExtendedMantissa.roundedMantissa, mantissa_shiftRight,
      mantissa_ofMantissaAndAccuracy]
    exact roundToNearestEven_le _ _
  have hfirst : totalExponent rounded (exponent + shift) ≤ bound + 1 := by
    have hmono : rounded.log2 ≤ (mantissa / 2 ^ shift + 1).log2 := by
      rw [Nat.log2_eq_log_two, Nat.log2_eq_log_two]
      exact Nat.log_mono_right hle
    by_cases hzero : mantissa / 2 ^ shift = 0
    · -- every bit was dropped, and the exponent is the target
      rw [hzero] at hmono
      rw [targetExponent_eq] at htarget
      rw [totalExponent] at h htarget ⊢
      have hlog : (0 + 1 : ℕ).log2 = 0 := rfl
      omega
    · have hkept := totalExponent_div_pow hzero exponent
      have hcarry := log2_succ_le (mantissa / 2 ^ shift)
      rw [totalExponent] at hkept ⊢
      omega
  unfold UnpackedFloat.roundWithAccuracy shiftToTargetExponent shiftToExponent
  apply Below.dite
  · intro _
    exact trivial
  · intro hfinal
    rw [mantissa_shiftRight, mantissa_ofMantissaAndAccuracy] at hfinal
    show totalExponent _ _ ≤ _
    rw [mantissa_shiftRight, mantissa_ofMantissaAndAccuracy]
    exact (totalExponent_div_pow hfinal _).trans_le hfirst

/-- The float of a number is below a bound from its logarithm. -/
theorem Below.ofNat {value : ℕ} {bound : ℤ} (h : value.log2 + 1 ≤ bound) :
    Below (bound + 1) (UnpackedFloat.ofNat Format.binary64 value) := by
  by_cases hzero : value = 0
  · rw [hzero]
    exact trivial
  have hcompare : compare (value : ℤ) 0 = .gt :=
    Int.compare_eq_gt.mpr (Int.natCast_pos.mpr (Nat.pos_of_ne_zero hzero))
  unfold UnpackedFloat.ofNat UnpackedFloat.ofInt UnpackedFloat.normalize
  rw [hcompare]
  simp only [Int.toNat_natCast, UnpackedFloat.round, decreaseExponent]
  apply Below.roundWithAccuracy
  · rw [totalExponent_shiftLeft hzero, totalExponent]
    omega
  · omega

/-- A quotient has its first digit where the dividend has it, but for the divisor's exponent. -/
theorem Below.div {float : UnpackedFloat} {bound : ℤ} (h : Below bound float) (sign : Sign)
    {mantissa : ℕ} {exponent : ℤ} (hmantissa : 0 < mantissa) (hbound : 0 ≤ bound - exponent) :
    Below (bound - exponent + 1)
      (UnpackedFloat.div Format.binary64 float (.finite sign mantissa exponent hmantissa)) := by
  cases float with
  | infinity sign => exact h.elim
  | notANumber => exact h.elim
  | zero sign => exact trivial
  | finite sign' mantissa' exponent' hmantissa' =>
    have hdividend : totalExponent mantissa' exponent' ≤ bound := h
    apply Below.roundWithAccuracy _ _ _ hbound
    refine (totalExponent_div _).trans ?_
    rw [totalExponent, log2_shiftLeft hmantissa'.ne']
    rw [totalExponent] at hdividend
    omega

/-! ## Packing -/

/-- The exponent field of a packed float. -/
def field (bits : BitVec Format.binary64.numBits) : ℕ := (unpackExponent bits).toNat

/-- The exponent's field of packed components. -/
theorem field_packComponents (sign : Sign) (exponent : BitVec Format.binary64.exponentBits)
    (mantissa : BitVec Format.binary64.mantissaBitsWithoutImplicit) :
    field (packComponents Format.binary64 sign exponent mantissa) = exponent.toNat := by
  rw [field, unpackExponent_packComponents]

/-- The exponent of a float below the limit fits its field. -/
theorem field_pack {float : UnpackedFloat} {bound : ℤ} (h : Below bound float) (hlow : 0 ≤ bound)
    (hhigh : bound ≤ 971) :
    (field (UnpackedFloat.pack Format.binary64 float) : ℤ) ≤ bound + 1074 := by
  cases float with
  | infinity sign => exact h.elim
  | notANumber => exact h.elim
  | zero sign =>
    unfold UnpackedFloat.pack
    rw [packedZero, field_packComponents]
    show (0 : ℤ) ≤ bound + 1074
    omega
  | finite sign mantissa exponent hmantissa =>
    have htotal : totalExponent mantissa exponent ≤ bound := h
    rw [totalExponent] at htotal
    have hbias : Format.binary64.exponentBias = 1023 := rfl
    have hfits : ¬2 ^ Format.binary64.exponentBits ≤
        (exponent + Format.binary64.exponentBias +
          Format.binary64.mantissaBitsWithoutImplicit).toNat + 1 := by
      rw [hbias]
      norm_num
      omega
    unfold UnpackedFloat.pack
    simp only
    rw [if_neg hfits]
    split_ifs with hnormal
    · rw [field_packComponents, BitVec.toNat_ofNat, hbias]
      norm_num
      omega
    · rw [field_packComponents]
      show (0 : ℤ) ≤ bound + 1074
      omega

/-- With the implicit bit a mantissa is positive. -/
theorem toNat_implicitBit_pos {width : ℕ} (mantissa : BitVec width) : 0 < (1#1 ++ mantissa).toNat := by
  simp

/-- A field that is not all ones belongs to a finite float. -/
theorem Below.unpack {bits : BitVec Format.binary64.numBits} (h : field bits < 2047) :
    Below (field bits - 1022) (UnpackedFloat.unpack Format.binary64 bits) := by
  have hmantissa : (unpackMantissa bits).toNat < 2 ^ 52 := (unpackMantissa bits).isLt
  have hbias : Format.binary64.exponentBias = 1023 := rfl
  have hnotOnes : unpackExponent bits ≠ -1#_ := by
    intro hones
    have hfull : field bits = 2047 := congrArg BitVec.toNat hones
    omega
  unfold UnpackedFloat.unpack
  dsimp only
  rw [if_neg hnotOnes]
  by_cases hsubnormal : unpackExponent bits = 0#11
  · rw [if_pos hsubnormal]
    apply Below.dite
    · intro _
      exact trivial
    · intro hzero
      have hnonzero : (unpackMantissa bits).toNat ≠ 0 := by
        intro heq
        exact hzero (BitVec.eq_of_toNat_eq heq)
      have hlog := (Nat.log2_lt hnonzero).mpr hmantissa
      have hfield : field bits = 0 := congrArg BitVec.toNat hsubnormal
      show totalExponent _ ((field bits : ℤ) - (Format.binary64.exponentBias + 52) + 1) ≤ _
      rw [totalExponent, hfield, hbias]
      norm_num
      omega
  · rw [if_neg hsubnormal]
    have hfull : (1#1 ++ unpackMantissa bits).toNat < 2 ^ 53 := (1#1 ++ unpackMantissa bits).isLt
    have hpos : 0 < (1#1 ++ unpackMantissa bits).toNat := toNat_implicitBit_pos _
    have hlog := (Nat.log2_lt hpos.ne').mpr hfull
    show totalExponent _ ((field bits : ℤ) - (Format.binary64.exponentBias + 52)) ≤ _
    rw [totalExponent, hbias]
    push_cast
    omega

/-- What is packed is unpacked below a bound that is higher by the number of binary digits. -/
theorem Below.unpack_pack {float : UnpackedFloat} {bound : ℤ} (h : Below bound float) (hlow : 0 ≤ bound)
    (hhigh : bound ≤ 971) : Below (bound + 52)
      (UnpackedFloat.unpack Format.binary64 (UnpackedFloat.pack Format.binary64 float)) := by
  have hfield := field_pack h hlow hhigh
  exact (Below.unpack (by omega)).mono (by omega)

/-- An integer divided by a float that is not tiny is finite. -/
theorem field_toFloat_div_lt (value : UInt64) {divisor : Float} {sign : Sign} {mantissa : ℕ}
    {exponent : ℤ} {hmantissa : 0 < mantissa}
    (hdivisor : divisor.toModel.unpack = .finite sign mantissa exponent hmantissa)
    (hlow : -800 ≤ exponent) (hhigh : exponent ≤ 0) :
    field (value.toFloat / divisor).toBits.toBitVec < 2047 := by
  have hlog : value.toNat.log2 ≤ 63 := by
    by_cases hzero : value.toNat = 0
    · rw [hzero]
      exact Nat.zero_le 63
    · exact Nat.lt_succ_iff.mp ((Nat.log2_lt hzero).mpr value.toNat_lt)
  have hvalue : Below 65 (UnpackedFloat.ofNat Format.binary64 value.toNat) :=
    (Below.ofNat le_rfl).mono (by omega)
  have hdividend := hvalue.unpack_pack (by decide) (by decide)
  have hquotient := @Below.div _ _ hdividend sign mantissa exponent hmantissa (by omega)
  have hfield := field_pack hquotient (by omega) (by omega)
  have hbits : (value.toFloat / divisor).toBits.toBitVec = UnpackedFloat.pack Format.binary64
      (UnpackedFloat.div Format.binary64 (UnpackedFloat.unpack Format.binary64
        (UnpackedFloat.pack Format.binary64 (UnpackedFloat.ofNat Format.binary64 value.toNat)))
        (.finite sign mantissa exponent hmantissa)) := by
    rw [← hdivisor]
    rfl
  rw [hbits]
  omega

end FloatExponent
