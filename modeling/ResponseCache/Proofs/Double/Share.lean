import ResponseCache.Proofs.Double.Normal

/-!
# The share of a part in a whole

The quotient of a double and one that is not smaller is not larger than one (`div_le_one`): with equal exponents its
mantissa is below a power of two, unless the two doubles are equal and it is one exactly. As a part is not a larger
double than the whole, its share is between zero and one (`share_mem`).
-/

namespace ResponseCache.Double

open Float.Model (Format totalExponent)
open Float.Model.UnpackedFloat

section Quotient

variable {x y : Normal}

/-- The quotient of two mantissas, with 53 digits behind the point. -/
def quotient (x y : Normal) : Nat := (x.mantissa <<< 53) / y.mantissa

/-- What was left out of the quotient, against the last digit. -/
def quotientAccuracy (x y : Normal) : Accuracy := accuracyOfFraction ((x.mantissa <<< 53) % y.mantissa) y.mantissa

theorem quotient_mem (x y : Normal) : 2 ^ 52 ≤ quotient x y ∧ quotient x y < 2 ^ 54 := by
  have fits := x.fits
  have leading := y.leading
  rw [quotient, Nat.shiftLeft_eq, Nat.le_div_iff_mul_le y.pos, Nat.div_lt_iff_lt_mul y.pos]
  exact ⟨Nat.mul_le_mul x.leading y.fits.le, by omega⟩

theorem quotient_lt (lt : x.mantissa < y.mantissa) : quotient x y < 2 ^ 53 := by
  rw [quotient, Nat.shiftLeft_eq, Nat.div_lt_iff_lt_mul y.pos]
  omega

/-- Equal mantissas go into each other exactly. -/
theorem quotient_self (same : x.mantissa = y.mantissa) : quotient x y = 2 ^ 53 ∧ quotientAccuracy x y = .exact := by
  rw [quotient, quotientAccuracy, same, Nat.shiftLeft_eq, Nat.mul_div_cancel_left _ y.pos, Nat.mul_mod_right]
  exact ⟨rfl, rfl⟩

theorem divCore_eq (range : -1021 ≤ x.exponent - y.exponent) :
    divCore .binary64 x.mantissa x.exponent y.mantissa y.exponent =
      (quotient x y, x.exponent - y.exponent - 53, quotientAccuracy x y) := by
  have target : Format.binary64.targetExponent (totalExponent x.mantissa x.exponent -
      totalExponent y.mantissa y.exponent) = x.exponent - y.exponent - 53 := by
    simp only [Format.targetExponent, totalExponent, Format.mantissaBits, Format.minExponent, Normal.log2_mantissa]
    omega
  have amount : (x.exponent - y.exponent - (x.exponent - y.exponent - 53)).toNat = 53 := by omega
  rw [divCore, target, min_eq_right (by omega), amount]
  rfl

/-- **The quotient of normal doubles** is their rounded quotient. -/
theorem div_eq (range : -1021 ≤ x.exponent - y.exponent) :
    div .binary64 x.unpacked y.unpacked = (Normal.ofRounded (roundedTo53 (quotient x y) (quotientAccuracy x y))
      (x.exponent - y.exponent - 53 + ((quotient x y).log2 - 52 : Nat))
      (roundedTo53_mem (quotient_mem x y).1 _).1).unpacked := by
  rw [← roundWithAccuracy_eq (quotient_mem x y).1 (by omega)]
  show (match divCore .binary64 x.mantissa x.exponent y.mantissa y.exponent with
    | (m, e, accuracy) => roundWithAccuracy .binary64 .positive m e accuracy) = _
  rw [divCore_eq range]

/-- **The quotient** of a normal double and one that is not smaller is not larger than one. -/
theorem div_le_one (le : x.Le y) (range : -1021 ≤ x.exponent - y.exponent) :
    ∃ z : Normal, div .binary64 x.unpacked y.unpacked = z.unpacked ∧ -1074 ≤ z.exponent ∧ z.Le .one := by
  obtain ⟨long, short⟩ := quotient_mem x y
  have digits : (quotient x y).log2 < 54 := (Nat.log2_lt (by omega)).2 short
  refine ⟨_, div_eq range, ?_, ?_⟩
  · refine le_trans ?_ (Normal.exponent_ofRounded _).1
    omega
  · show Normal.Le _ (Normal.ofRounded (2 ^ 52) (-52) le_rfl)
    apply Normal.ofRounded_le
    rcases le with smaller | ⟨same, le⟩
    · exact .inl (by omega)
    · rcases Nat.lt_or_eq_of_le le with lt | eq
      · have : (quotient x y).log2 < 53 := (Nat.log2_lt (by omega)).2 (quotient_lt lt)
        exact .inl (by omega)
      · -- one exactly: the quotient is the power of two that is left out otherwise
        obtain ⟨power, exact⟩ := quotient_self eq
        rw [power, exact, Nat.log2_two_pow, same]
        exact .inr ⟨by omega, by decide⟩

end Quotient

theorem unpack_div (a b : Float) :
    (a / b).toModel.unpack = (Float.Model.pack (div .binary64 a.toModel.unpack b.toModel.unpack)).unpack := rfl

theorem le_of_unpack {a b : Float} (le : a.toModel.unpack.le b.toModel.unpack = true) : a ≤ b := decide_eq_true le

theorem zero_div (y : Normal) : div .binary64 (.zero .positive) y.unpacked = .zero .positive := rfl

theorem zero_mem : (0 : Float) ≤ 0 ∧ (0 : Float) ≤ 1 := by decide

/-- **The share** of a part in a whole is between zero and one. -/
theorem share_mem {part whole : UInt64} (le : part ≤ whole) (pos : 0 < whole) :
    0 ≤ part.toFloat / whole.toFloat ∧ part.toFloat / whole.toFloat ≤ 1 := by
  have whole_pos : 0 < whole.toNat := UInt64.lt_iff_toNat_lt.1 pos
  rcases Nat.eq_zero_or_pos part.toNat with zero | part_pos
  · obtain rfl : part = 0 := UInt64.toNat_inj.1 zero
    have nothing : (0 : UInt64).toFloat.toModel.unpack = .zero .positive := rfl
    have unpacked : ((0 : UInt64).toFloat / whole.toFloat).toModel.unpack = .zero .positive := by
      rw [unpack_div, unpack_toFloat whole_pos, nothing, zero_div]
      rfl
    exact ⟨le_of_unpack (by rw [unpacked]; rfl), le_of_unpack (by rw [unpacked]; rfl)⟩
  · have part_range := exponent_ofNat part_pos part.toNat_lt
    have whole_range := exponent_ofNat whole_pos whole.toNat_lt
    obtain ⟨z, eq, low, le_one⟩ := div_le_one (ofNat_le part_pos (UInt64.le_iff_toNat_le.1 le)) (by omega)
    have high : z.exponent ≤ -52 := le_one.elim le_of_lt fun both => both.1.le
    have unpacked : (part.toFloat / whole.toFloat).toModel.unpack = z.unpacked := by
      rw [unpack_div, unpack_toFloat part_pos, unpack_toFloat whole_pos, eq]
      exact z.unpack_pack low (by omega)
    exact ⟨le_of_unpack (by rw [unpacked]; rfl), le_of_unpack (by rw [unpacked]; exact Normal.le_unpacked le_one)⟩

end ResponseCache.Double
