import Mathlib

/-!
# Words as doubles

A positive number becomes the double with 53 binary digits that is nearest to it (`ofNat`): it gets digits behind it
until there are enough of them, and is then shifted to the right, with two bits kept for what is shifted out. Read as
one number with the mantissa, these bits keep the order of what is shifted (`weight_shiftRight_le`), and so does
rounding (`roundedMantissa_le`); so a larger word is not a smaller double (`ofNat_le`). A word as a double is stored
without loss (`unpack_toFloat`).
-/

namespace ResponseCache.Double

open Float.Model (Format totalExponent)
open Float.Model.UnpackedFloat

/-! ## Rounding -/

section Rounding

variable {a b : ExtendedMantissa}

/-- A mantissa and the two bits behind it as one number. -/
def weight (a : ExtendedMantissa) : Nat := 4 * a.mantissa + 2 * a.roundBit.toNat + a.stickyBit.toNat

theorem shiftRight_succ (a : ExtendedMantissa) (n : Nat) : a >>> (n + 1) = (a >>> n).shiftRightOne := rfl

theorem weight_shiftRightOne (a : ExtendedMantissa) :
    weight a.shiftRightOne = 2 * (weight a / 4) + min 1 (weight a % 4) := by
  obtain ⟨m, r, s⟩ := a
  have bit : (m % 2 != 0).toNat = m % 2 := by
    rcases Nat.mod_two_eq_zero_or_one m with eq | eq <;> rw [eq] <;> rfl
  simp only [weight, ExtendedMantissa.shiftRightOne, bit]
  cases r <;> cases s <;> simp <;> omega

/-- **Shifting** keeps the order. -/
theorem weight_shiftRight_le (le : weight a ≤ weight b) (n : Nat) : weight (a >>> n) ≤ weight (b >>> n) := by
  induction n with
  | zero => exact le
  | succ n ih =>
    rw [shiftRight_succ, shiftRight_succ, weight_shiftRightOne, weight_shiftRightOne]
    omega

/-- **Rounding** keeps the order. -/
theorem roundedMantissa_le (le : weight a ≤ weight b) : a.roundedMantissa ≤ b.roundedMantissa := by
  obtain ⟨m, r, s⟩ := a
  obtain ⟨m', r', s'⟩ := b
  simp only [weight] at le
  cases r <;> cases s <;> cases r' <;> cases s' <;>
    simp [ExtendedMantissa.roundedMantissa, ExtendedMantissa.accuracy, Accuracy.roundToNearestEven] at le ⊢ <;> omega

/-- Rounding adds one at most. -/
theorem roundedMantissa_mem (a : ExtendedMantissa) :
    a.mantissa ≤ a.roundedMantissa ∧ a.roundedMantissa ≤ a.mantissa + 1 := by
  obtain ⟨m, r, s⟩ := a
  have parity := Nat.mod_two_eq_zero_or_one m
  cases r <;> cases s <;>
    simp [ExtendedMantissa.roundedMantissa, ExtendedMantissa.accuracy, Accuracy.roundToNearestEven]
  omega

theorem mantissa_shiftRight (a : ExtendedMantissa) (n : Nat) : (a >>> n).mantissa = a.mantissa / 2 ^ n := by
  induction n with
  | zero => exact (Nat.div_one _).symm
  | succ n ih => rw [shiftRight_succ, ExtendedMantissa.shiftRightOne, ih, Nat.div_div_eq_div_mul, Nat.pow_succ]

theorem mantissa_ofMantissaAndAccuracy (m : Nat) (accuracy : Accuracy) :
    (ExtendedMantissa.ofMantissaAndAccuracy m accuracy).mantissa = m := by
  rcases accuracy with _ | (_ | _ | _) <;> rfl

end Rounding

/-! ## Normal doubles -/

/-- A positive double with 53 binary digits, `mantissa · 2 ^ exponent`. -/
structure Normal where
  mantissa : Nat
  exponent : Int
  leading : 2 ^ 52 ≤ mantissa
  fits : mantissa < 2 ^ 53

namespace Normal

/-- The order by value. -/
def Le (x y : Normal) : Prop := x.exponent < y.exponent ∨ x.exponent = y.exponent ∧ x.mantissa ≤ y.mantissa

theorem pos (x : Normal) : 0 < x.mantissa := Nat.lt_of_lt_of_le (by decide) x.leading

theorem log2_mantissa (x : Normal) : x.mantissa.log2 = 52 := (Nat.log2_eq_iff x.pos.ne').2 ⟨x.leading, x.fits⟩

def unpacked (x : Normal) : Float.Model.UnpackedFloat := .finite .positive x.mantissa x.exponent x.pos

def one : Normal := ⟨2 ^ 52, -52, by decide, by decide⟩

/-- A rounded mantissa, which may have grown to a power of two. -/
def ofRounded (r : Nat) (e : Int) (leading : 2 ^ 52 ≤ r) : Normal :=
  if fits : r < 2 ^ 53 then ⟨r, e, leading, fits⟩ else ⟨2 ^ 52, e + 1, by decide, by decide⟩

theorem ofRounded_le {r r' : Nat} {e e' : Int} (leading : 2 ^ 52 ≤ r) (leading' : 2 ^ 52 ≤ r')
    (le : e < e' ∨ e = e' ∧ r ≤ r') : (ofRounded r e leading).Le (ofRounded r' e' leading') := by
  unfold ofRounded Le
  split <;> split <;> dsimp only <;> omega

theorem exponent_ofRounded {r : Nat} {e : Int} (leading : 2 ^ 52 ≤ r) :
    e ≤ (ofRounded r e leading).exponent ∧ (ofRounded r e leading).exponent ≤ e + 1 := by
  unfold ofRounded
  split <;> simp

/-- Normal doubles are compared by value. -/
theorem le_unpacked {x y : Normal} (le : x.Le y) : x.unpacked.le y.unpacked = true := by
  show ((compare x.exponent y.exponent).then (compare x.mantissa y.mantissa)).isLE = true
  rcases le with lt | ⟨eq, le⟩
  · rw [Int.compare_eq_lt.2 lt]
    rfl
  · rw [Int.compare_eq_eq.2 eq]
    exact Nat.isLE_compare.2 le

end Normal

/-- A mantissa that is long enough is shifted until 53 digits are left. -/
theorem shiftToTargetExponent_eq {m : Nat} {e : Int} (long : 2 ^ 52 ≤ m) (range : -1074 ≤ e + (m.log2 - 52 : Nat))
    (accuracy : Accuracy) : shiftToTargetExponent .binary64 m e accuracy =
      (ExtendedMantissa.ofMantissaAndAccuracy m accuracy >>> (m.log2 - 52), e + (m.log2 - 52 : Nat)) := by
  have digits : 52 ≤ m.log2 := (Nat.le_log2 (by omega)).2 long
  have target : Format.binary64.targetExponent (totalExponent m e) = e + (m.log2 - 52 : Nat) := by
    simp only [Format.targetExponent, totalExponent, Format.mantissaBits, Format.minExponent]
    omega
  have amount : (e + (m.log2 - 52 : Nat) - e).toNat = m.log2 - 52 := by omega
  rw [shiftToTargetExponent, target, shiftToExponent, amount]

/-- A mantissa that is rounded to 53 digits, or up to the next power of two. -/
def roundedTo53 (m : Nat) (accuracy : Accuracy) : Nat :=
  (ExtendedMantissa.ofMantissaAndAccuracy m accuracy >>> (m.log2 - 52)).roundedMantissa

theorem roundedTo53_mem {m : Nat} (long : 2 ^ 52 ≤ m) (accuracy : Accuracy) :
    2 ^ 52 ≤ roundedTo53 m accuracy ∧ roundedTo53 m accuracy ≤ 2 ^ 53 := by
  have digits : 52 ≤ m.log2 := (Nat.le_log2 (by omega)).2 long
  have bounds := roundedMantissa_mem (ExtendedMantissa.ofMantissaAndAccuracy m accuracy >>> (m.log2 - 52))
  rw [mantissa_shiftRight, mantissa_ofMantissaAndAccuracy] at bounds
  have parted (k : Nat) : 2 ^ (52 + k) * 2 ^ (m.log2 - 52) = 2 ^ (m.log2 + k) := by
    rw [← Nat.pow_add]
    congr 1
    omega
  have lo : 2 ^ 52 ≤ m / 2 ^ (m.log2 - 52) := by
    rw [Nat.le_div_iff_mul_le (Nat.two_pow_pos _), parted 0]
    exact Nat.log2_self_le (by omega)
  have hi : m / 2 ^ (m.log2 - 52) < 2 ^ 53 := by
    rw [Nat.div_lt_iff_lt_mul (Nat.two_pow_pos _), parted 1]
    exact Nat.lt_log2_self
  unfold roundedTo53
  omega

/-- A mantissa that has grown to a power of two is shifted once more. -/
theorem shift_rounded {r : Nat} {e : Int} (lo : 2 ^ 52 ≤ r) (hi : r ≤ 2 ^ 53) (range : -1074 ≤ e) :
    (shiftToTargetExponent .binary64 r e .exact).1.mantissa = (Normal.ofRounded r e lo).mantissa ∧
      (shiftToTargetExponent .binary64 r e .exact).2 = (Normal.ofRounded r e lo).exponent := by
  rw [shiftToTargetExponent_eq lo (by omega), mantissa_shiftRight, mantissa_ofMantissaAndAccuracy, Normal.ofRounded]
  split
  · next fits =>
    have digits : r.log2 = 52 := (Nat.log2_eq_iff (by omega)).2 ⟨lo, fits⟩
    simp [digits]
  · next grown =>
    have exact : r = 2 ^ 53 := by omega
    rw [exact, Nat.log2_two_pow]
    exact ⟨show 2 ^ 53 / 2 ^ 1 = 2 ^ 52 by decide, rfl⟩

/-- **Rounding a mantissa** that is long enough gives a normal double. -/
theorem roundWithAccuracy_eq {m : Nat} {e : Int} (long : 2 ^ 52 ≤ m) (range : -1074 ≤ e + (m.log2 - 52 : Nat))
    (accuracy : Accuracy) : roundWithAccuracy .binary64 .positive m e accuracy =
      (Normal.ofRounded (roundedTo53 m accuracy) (e + (m.log2 - 52 : Nat))
        (roundedTo53_mem long accuracy).1).unpacked := by
  obtain ⟨lo, hi⟩ := roundedTo53_mem long accuracy
  obtain ⟨mantissa, exponent⟩ := shift_rounded lo hi range
  rw [roundWithAccuracy, shiftToTargetExponent_eq long range]
  dsimp only
  rw [← roundedTo53]
  generalize shiftToTargetExponent .binary64 (roundedTo53 m accuracy) (e + (m.log2 - 52 : Nat)) .exact = second at *
  obtain ⟨⟨_, _, _⟩, _⟩ := second
  dsimp only at mantissa exponent ⊢
  subst mantissa exponent
  exact dif_neg (Normal.pos _).ne'

/-! ## Packing -/

/-- The leading digit is not stored. -/
theorem toNat_leading_append {m : Nat} (leading : 2 ^ 52 ≤ m) (fits : m < 2 ^ 53) :
    (1#1 ++ BitVec.ofNat 52 m).toNat = m := by
  rw [BitVec.toNat_append, ← Nat.shiftLeft_add_eq_or_of_lt (BitVec.isLt _), BitVec.toNat_ofNat]
  simp
  omega

/-- **A normal double** within the range of exponents is stored without loss. -/
theorem Normal.unpack_pack (x : Normal) (lo : -1074 ≤ x.exponent) (hi : x.exponent ≤ 971) :
    (Float.Model.pack x.unpacked).unpack = x.unpacked := by
  let k := (x.exponent + Format.binary64.exponentBias + Format.binary64.mantissaBitsWithoutImplicit).toNat
  have biased : (k : Int) = x.exponent + 1075 := by
    show ((x.exponent + 1023 + 52).toNat : Int) = _
    omega
  have field : (BitVec.ofNat 11 k).toNat = k := by
    rw [BitVec.toNat_ofNat, Nat.mod_eq_of_lt (by omega)]
  -- neither the exponent of zero nor that of infinity
  have inner : BitVec.ofNat 11 k ≠ -1#11 ∧ BitVec.ofNat 11 k ≠ 0#11 := by
    refine ⟨fun eq => ?_, fun eq => ?_⟩ <;>
    · have := congrArg BitVec.toNat eq
      rw [field] at this
      simp at this
      omega
  have packed : Float.Model.UnpackedFloat.pack .binary64 x.unpacked =
      packComponents .binary64 .positive (BitVec.ofNat 11 k) (BitVec.ofNat 52 x.mantissa) := by
    show (if 2 ^ 11 ≤ k + 1 then _ else if x.mantissa.log2 + 1 = 1 + 52 then _ else _) = _
    rw [if_neg (by omega), if_pos (congrArg (· + 1) x.log2_mantissa)]
  have unbiased : (k : Int) - (Format.binary64.exponentBias + Format.binary64.mantissaBitsWithoutImplicit) =
      x.exponent := by
    show (k : Int) - (1023 + 52) = x.exponent
    omega
  show Float.Model.UnpackedFloat.unpack .binary64 (Float.Model.UnpackedFloat.pack .binary64 x.unpacked) = _
  rw [packed, Float.Model.UnpackedFloat.unpack]
  simp only [unpackSign_packComponents, unpackExponent_packComponents, unpackMantissa_packComponents]
  rw [if_neg inner.1, if_neg inner.2]
  simp only [field, toNat_leading_append x.leading x.fits, unbiased]
  rfl

/-! ## Words -/

theorem log2_shiftLeft {n : Nat} (pos : 0 < n) (k : Nat) : (n <<< k).log2 = n.log2 + k := by
  have shifted : n <<< k ≠ 0 := by
    rw [Nat.shiftLeft_eq]
    exact (Nat.mul_pos pos (Nat.two_pow_pos k)).ne'
  rw [Nat.log2_eq_iff shifted, Nat.shiftLeft_eq, Nat.pow_add, Nat.add_right_comm, Nat.pow_add]
  exact ⟨Nat.mul_le_mul_right _ (Nat.log2_self_le pos.ne'),
    Nat.mul_lt_mul_of_pos_right Nat.lt_log2_self (Nat.two_pow_pos k)⟩

/-- A number with zeros behind it, until there are 53 digits. -/
def lengthened (n : Nat) : Nat := n <<< (52 - n.log2)

theorem le_lengthened {n : Nat} (pos : 0 < n) : 2 ^ 52 ≤ lengthened n := by
  have digits : 52 ≤ (lengthened n).log2 := by
    rw [lengthened, log2_shiftLeft pos]
    omega
  refine (Nat.le_log2 fun zero => ?_).1 digits
  rw [zero] at digits
  exact absurd digits (by decide)

/-- **The double of a positive number**: the nearest one. -/
def ofNat (n : Nat) (pos : 0 < n) : Normal :=
  .ofRounded (roundedTo53 (lengthened n) .exact) (n.log2 - 52) (roundedTo53_mem (le_lengthened pos) _).1

/-- **A larger number** is not a smaller double. -/
theorem ofNat_le {m n : Nat} (pos : 0 < m) (le : m ≤ n) : (ofNat m pos).Le (ofNat n (pos.trans_le le)) := by
  have digits : m.log2 ≤ n.log2 := (Nat.le_log2 (by omega)).2 ((Nat.log2_self_le pos.ne').trans le)
  apply Normal.ofRounded_le
  rcases Nat.lt_or_eq_of_le digits with lt | eq
  · exact .inl (by omega)
  · -- as many digits: both are shifted alike
    have shifted : m <<< (52 - n.log2) ≤ n <<< (52 - n.log2) := by
      rw [Nat.shiftLeft_eq, Nat.shiftLeft_eq]
      exact Nat.mul_le_mul_right _ le
    refine .inr ⟨by omega, roundedMantissa_le ?_⟩
    rw [lengthened, lengthened, log2_shiftLeft pos, log2_shiftLeft (pos.trans_le le), eq]
    apply weight_shiftRight_le
    simpa [weight, ExtendedMantissa.ofMantissaAndAccuracy] using shifted

theorem exponent_ofNat {n : Nat} (pos : 0 < n) (word : n < 2 ^ 64) :
    -52 ≤ (ofNat n pos).exponent ∧ (ofNat n pos).exponent ≤ 12 := by
  have digits : n.log2 < 64 := (Nat.log2_lt pos.ne').2 word
  have bounds : (n.log2 : Int) - 52 ≤ (ofNat n pos).exponent ∧ (ofNat n pos).exponent ≤ (n.log2 : Int) - 52 + 1 :=
    Normal.exponent_ofRounded _
  omega

theorem round_eq {n : Nat} (pos : 0 < n) :
    Float.Model.UnpackedFloat.round .binary64 .positive n 0 = (ofNat n pos).unpacked := by
  have digits : (lengthened n).log2 = n.log2 + (52 - n.log2) := log2_shiftLeft pos _
  have target : Format.binary64.targetExponent (totalExponent n 0) = (n.log2 : Int) - 52 := by
    simp only [Format.targetExponent, totalExponent, Format.mantissaBits, Format.minExponent]
    omega
  have amount : (0 - ((n.log2 : Int) - 52)).toNat = 52 - n.log2 := by omega
  have exponent : 0 - ((52 - n.log2 : Nat) : Int) + ((lengthened n).log2 - 52 : Nat) = (n.log2 : Int) - 52 := by omega
  rw [Float.Model.UnpackedFloat.round, target, decreaseExponent, amount]
  dsimp only
  rw [← lengthened, roundWithAccuracy_eq (le_lengthened pos) (by omega)]
  simp only [exponent]
  rfl

/-- **A word** that is not zero is the nearest double. -/
theorem unpack_toFloat {n : UInt64} (pos : 0 < n.toNat) : n.toFloat.toModel.unpack = (ofNat n.toNat pos).unpacked := by
  have range := exponent_ofNat pos n.toNat_lt
  have converted : ofUInt64 .binary64 n = (ofNat n.toNat pos).unpacked := by
    rw [ofUInt64, Float.Model.UnpackedFloat.ofNat, ofInt, Float.Model.UnpackedFloat.normalize,
      Int.compare_eq_gt.2 (by omega)]
    exact round_eq pos
  show (Float.Model.pack (ofUInt64 .binary64 n)).unpack = _
  rw [converted]
  exact Normal.unpack_pack _ (by omega) (by omega)

end ResponseCache.Double
