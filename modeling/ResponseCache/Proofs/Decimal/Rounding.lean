import Mathlib.Algebra.Order.Field.Rat
import Mathlib.Algebra.Order.Field.Power
import Mathlib.Order.Monotone.Basic
import Mathlib.Tactic.FieldSimp
import Mathlib.Tactic.Linarith
import Mathlib.Tactic.Positivity
import Mathlib.Tactic.Ring
import ResponseCache.Decimal.Shortest

/-!
# The shortest decimal reads back

The numbers that round to a double lie between the points half-way to its neighbours (`Dyadic.Rounds`). The shortest
decimal of a double is one of them (`rounds_shortest`): what `onGrid?` finds is (`rounds_of_onGrid`), and on the last
grid that is tried it finds something, for its step is shorter than the interval (`step_of_onGrid_none`).

The intervals of the doubles lie side by side, in the order of their bits (`high_nth`), and the end that two of them
share belongs to the one with the even mantissa. So a number rounds to one double only (`Dyadic.Rounds.unique`), and
the shortest decimal tells the double that it was made from (`magnitude_of_shortest`).
-/

namespace ResponseCache.Decimal

/-! ## Values -/

/-- The number that a decimal stands for. -/
def Digits.value (x : Digits) : ℚ := x.coefficient * 10 ^ x.exponent

namespace Dyadic

def value (d : Dyadic) : ℚ := d.mantissa * 2 ^ d.exponent

/-- The point half-way to the next double below. -/
def low (d : Dyadic) : ℚ := (4 * d.mantissa - if d.binade then 1 else 2) * 2 ^ d.exponent / 4

/-- The point half-way to the next double above. -/
def high (d : Dyadic) : ℚ := (4 * d.mantissa + 2) * 2 ^ d.exponent / 4

/-- The number rounds to the double. Of the ends, both do if the mantissa is even, and none if it is odd. -/
def Rounds (d : Dyadic) (x : ℚ) : Prop :=
  if d.mantissa % 2 = 0 then d.low ≤ x ∧ x ≤ d.high else d.low < x ∧ x < d.high

/-- The mantissa has 53 bits at most, and is the least of that length where the gaps change. -/
structure Fits (d : Dyadic) : Prop where
  pos : 0 < d.mantissa
  lt : d.mantissa < 2 ^ 53
  binade : d.binade = true → d.mantissa ≤ 2 ^ 52

section Ends

variable (d : Dyadic)

theorem low_lt_value : d.low < d.value := by
  have pos : (0 : ℚ) < 2 ^ d.exponent := by positivity
  unfold low value
  split <;> linarith

theorem value_lt_high : d.value < d.high := by
  have pos : (0 : ℚ) < 2 ^ d.exponent := by positivity
  unfold high value
  linarith

variable {d} {x : ℚ}

theorem Fits.low_pos (fits : d.Fits) : 0 < d.low := by
  have pos : (0 : ℚ) < 2 ^ d.exponent := by positivity
  have one : (1 : ℚ) ≤ d.mantissa := by exact_mod_cast fits.pos
  have positive : (0 : ℚ) < 4 * d.mantissa - if d.binade then 1 else 2 := by
    split <;> linarith
  unfold low
  positivity

theorem Rounds.le (rounds : d.Rounds x) : d.low ≤ x ∧ x ≤ d.high := by
  unfold Rounds at rounds
  split at rounds
  · exact rounds
  · exact ⟨rounds.1.le, rounds.2.le⟩

end Ends

end Dyadic

/-! ## Grids -/

/-- A power is a quotient of two powers with natural exponents. -/
theorem zpow_mul_pow_toNat {b : ℚ} (nonzero : b ≠ 0) (n : ℤ) : b ^ n * b ^ (-n).toNat = b ^ n.toNat := by
  obtain ⟨k, rfl | rfl⟩ := n.eq_nat_or_neg
  · simp
  · simp [nonzero]

section Grids

variable {d : Dyadic} {p : Int}

/-- The integers that `scaled` gives are the numbers in units of one length. -/
theorem scaled_eq (pos : 0 < d.mantissa) (p : Int) : ∃ unit : ℚ, 0 < unit ∧ (scaled d p).1 = d.low * unit ∧
    (scaled d p).2.1 = d.value * unit ∧ (scaled d p).2.2.1 = d.high * unit ∧ (scaled d p).2.2.2 = 10 ^ p * unit := by
  have two := zpow_mul_pow_toNat (show (2 : ℚ) ≠ 0 by decide) d.exponent
  have ten := zpow_mul_pow_toNat (show (10 : ℚ) ≠ 0 by decide) p
  have ten_pos : (0 : ℚ) < 10 ^ p := by positivity
  have unit_eq : (10 : ℚ) ^ (-p).toNat = 10 ^ p.toNat / 10 ^ p := by
    rw [← ten]
    field_simp
  have below : (if d.binade then 1 else 2) ≤ 4 * d.mantissa := by
    split <;> omega
  refine ⟨4 * 2 ^ (-d.exponent).toNat * 10 ^ p.toNat / 10 ^ p, by positivity, ?_, ?_, ?_, ?_⟩
  · simp only [scaled, Dyadic.low, Nat.pow_eq]
    push_cast [Nat.cast_sub below]
    rw [← two, unit_eq]
    split <;> ring
  · simp only [scaled, Dyadic.value, Nat.pow_eq]
    push_cast
    rw [← two, unit_eq]
    ring
  · simp only [scaled, Dyadic.high, Nat.pow_eq]
    push_cast
    rw [← two, unit_eq]
    ring
  · simp only [scaled, Nat.pow_eq]
    push_cast
    field_simp

section Choice

variable {below above nearer : Prop} [Decidable below] [Decidable above] [Decidable nearer] {f g c : Nat}

/-- Of two points the one that is chosen may be chosen. -/
theorem choice_of_some (hit : (if below ∧ above then some (if nearer then f else g) else if below then some f
    else if above then some g else none) = some c) : (c = f ∧ below) ∨ (c = g ∧ above) := by
  split at hit
  · next both =>
    obtain rfl := Option.some.inj hit
    split
    · exact .inl ⟨rfl, both.1⟩
    · exact .inr ⟨rfl, both.2⟩
  · split at hit
    · next lower => exact .inl ⟨(Option.some.inj hit).symm, lower⟩
    · split at hit
      · next upper => exact .inr ⟨(Option.some.inj hit).symm, upper⟩
      · cases hit

theorem choice_of_none (miss : (if below ∧ above then some (if nearer then f else g) else if below then some f
    else if above then some g else none) = none) : ¬ below ∧ ¬ above := by
  split at miss
  · cases miss
  · split at miss
    · cases miss
    · split at miss
      · cases miss
      · next lower upper => exact ⟨lower, upper⟩

end Choice

/-- An integer is not beyond the ends, which count if the mantissa is even. -/
def Within (d : Dyadic) (low high x : Nat) : Prop :=
  (if d.mantissa % 2 = 0 then low ≤ x else low < x) ∧ if d.mantissa % 2 = 0 then x ≤ high else x < high

theorem within_iff (d : Dyadic) {unit : ℚ} (pos : 0 < unit) {low high den c : Nat} (low_eq : low = d.low * unit)
    (high_eq : high = d.high * unit) (den_eq : den = 10 ^ p * unit) :
    Within d low high (c * den) ↔ d.Rounds (c * 10 ^ p) := by
  have scale : ((c * den : Nat) : ℚ) = c * 10 ^ p * unit := by
    rw [Nat.cast_mul, den_eq, mul_assoc]
  have le_iff : ∀ {x y : ℚ}, x * unit ≤ y * unit ↔ x ≤ y := mul_le_mul_iff_left₀ pos
  have lt_iff : ∀ {x y : ℚ}, x * unit < y * unit ↔ x < y := mul_lt_mul_iff_left₀ pos
  unfold Dyadic.Rounds Within
  simp only [← Nat.cast_le (α := ℚ), ← Nat.cast_lt (α := ℚ), scale, low_eq, high_eq, le_iff, lt_iff]
  split <;> rfl

/-- **What is found on a grid** rounds to the double. -/
theorem rounds_of_onGrid {c : Nat} (pos : 0 < d.mantissa) (hit : onGrid? d p = some c) : d.Rounds (c * 10 ^ p) := by
  obtain ⟨unit, unit_pos, low_eq, value_eq, high_eq, den_eq⟩ := scaled_eq pos p
  unfold onGrid? at hit
  generalize scaled d p = t at *
  obtain ⟨low, value, high, den⟩ := t
  dsimp only at *
  have low_lt : low < value := by
    rw [← Nat.cast_lt (α := ℚ), low_eq, value_eq]
    exact mul_lt_mul_of_pos_right d.low_lt_value unit_pos
  have lt_high : value < high := by
    rw [← Nat.cast_lt (α := ℚ), high_eq, value_eq]
    exact mul_lt_mul_of_pos_right d.value_lt_high unit_pos
  have den_pos : 0 < den := by
    rw [← Nat.cast_pos (α := ℚ), den_eq]
    positivity
  -- the value lies between the two points, so each has one end to mind
  have le : value / den * den ≤ value := Nat.div_mul_le_self value den
  have lt : value < (value / den + 1) * den := by
    rw [Nat.succ_mul]
    exact Nat.lt_div_mul_add den_pos
  have floor : (if d.mantissa % 2 = 0 then low ≤ value / den * den else low < value / den * den) →
      Within d low high (value / den * den) := by
    intro below
    refine ⟨below, ?_⟩
    split <;> omega
  have ceiling : (if d.mantissa % 2 = 0 then (value / den + 1) * den ≤ high else (value / den + 1) * den < high) →
      Within d low high ((value / den + 1) * den) := by
    intro above
    refine ⟨?_, above⟩
    split <;> omega
  rw [← within_iff d unit_pos low_eq high_eq den_eq]
  rcases choice_of_some hit with ⟨rfl, below⟩ | ⟨rfl, above⟩
  · exact floor below
  · exact ceiling above

/-- **A grid without a hit** is coarser than the interval is long. -/
theorem step_of_onGrid_none (pos : 0 < d.mantissa) (miss : onGrid? d p = none) : d.high - d.low ≤ 10 ^ p := by
  obtain ⟨unit, unit_pos, low_eq, value_eq, high_eq, den_eq⟩ := scaled_eq pos p
  unfold onGrid? at miss
  generalize scaled d p = t at *
  obtain ⟨low, value, high, den⟩ := t
  dsimp only at *
  have next : (value / den + 1) * den = value / den * den + den := Nat.succ_mul _ _
  have short : high ≤ low + den := by
    obtain ⟨below, above⟩ := choice_of_none miss
    by_cases even : d.mantissa % 2 = 0
    · rw [if_pos even] at below above
      omega
    · rw [if_neg even] at below above
      omega
  rw [← Nat.cast_le (α := ℚ), Nat.cast_add, low_eq, high_eq, den_eq, ← add_mul, mul_le_mul_iff_left₀ unit_pos] at short
  linarith

end Grids

/-! ## The search -/

theorem pow_length_toDigits_le {n : Nat} (pos : 0 < n) : 10 ^ ((Nat.toDigits 10 n).length - 1) ≤ n := by
  by_contra less
  have lt := Nat.lt_of_not_le less
  by_cases one : (Nat.toDigits 10 n).length - 1 = 0
  · rw [one] at lt
    omega
  · have := (Nat.length_toDigits_le_iff (by decide) (Nat.pos_of_ne_zero one)).2 lt
    omega

theorem lt_pow_length_toDigits (n : Nat) : n < 10 ^ (Nat.toDigits 10 n).length :=
  (Nat.length_toDigits_le_iff (by decide) (List.length_pos_of_ne_nil Nat.toDigits_ne_nil)).1 (Nat.le_refl _)

section Search

variable {d : Dyadic}

/-- **The first grid** is not above the number. -/
theorem pow_leadingPlace_le (pos : 0 < d.mantissa) : (10 : ℚ) ^ leadingPlace d ≤ d.value := by
  have two := zpow_mul_pow_toNat (show (2 : ℚ) ≠ 0 by decide) d.exponent
  set num := d.mantissa * 2 ^ d.exponent.toNat with num_eq
  set den := 2 ^ (-d.exponent).toNat with den_eq
  have num_pos : 0 < num := by positivity
  have den_pos : 0 < den := by positivity
  have value : d.value = num / den := by
    rw [num_eq, den_eq, Dyadic.value]
    push_cast
    rw [← two]
    field_simp
  rw [value, le_div_iff₀ (by exact_mod_cast den_pos)]
  unfold leadingPlace
  simp only [Nat.pow_eq, ← num_eq, ← den_eq]
  have fraction : ∀ k : Nat, den ≤ num * 10 ^ k → (10 : ℚ) ^ (-(k : Int)) * den ≤ num := by
    intro k le
    rw [zpow_neg, zpow_natCast, inv_mul_le_iff₀ (by positivity), mul_comm]
    exact_mod_cast le
  split
  · next whole =>
    have places := pow_length_toDigits_le (Nat.div_pos whole den_pos)
    have length := List.length_pos_of_ne_nil (Nat.toDigits_ne_nil (b := 10) (n := num / den))
    rw [← Nat.cast_pred length, zpow_natCast]
    exact_mod_cast Nat.mul_le_of_le_div _ _ _ places
  · have places := lt_pow_length_toDigits (den / num)
    have length := List.length_pos_of_ne_nil (Nat.toDigits_ne_nil (b := 10) (n := den / num))
    rw [Nat.div_lt_iff_lt_mul num_pos, Nat.mul_comm] at places
    split
    · next le =>
      rw [← Nat.cast_pred length]
      exact fraction _ le
    · exact fraction _ places.le

/-- Zeros that are taken off do not count. -/
theorem value_stripZeros (fuel : Nat) (c : Nat) (e : Int) : (stripZeros c e fuel).value = c * 10 ^ e := by
  induction fuel generalizing c e with
  | zero => rfl
  | succ fuel ih =>
    unfold stripZeros
    split
    · next zero =>
      have whole : (c : ℚ) = (c / 10 : Nat) * 10 := by
        exact_mod_cast (Nat.div_mul_cancel (Nat.dvd_of_mod_eq_zero zero)).symm
      rw [ih, whole, zpow_add₀ (by decide)]
      ring
    · rfl

/-- A search that comes upon a hit stops at one. -/
theorem search_hits {step : Int} {count i : Nat} (lt : i < count) (hit : (onGrid? d (step - i)).isSome) :
    ∃ p c, onGrid? d p = some c ∧ search d step count = stripZeros c p 18 := by
  induction count generalizing step i with
  | zero => cases lt
  | succ count ih =>
    unfold search
    split
    · next c found => exact ⟨step, c, found, rfl⟩
    · next miss =>
      cases i with
      | zero =>
        rw [Nat.cast_zero, sub_zero, miss] at hit
        cases hit
      | succ i =>
        refine ih (i := i) (by omega) ?_
        rwa [show step - 1 - (i : Int) = step - (i + 1 : Nat) by omega]

/-- **The last grid** that is tried is finer than the interval is long. -/
theorem step_lt (fits : d.Fits) : (10 : ℚ) ^ (leadingPlace d - 16) < d.high - d.low := by
  have below := pow_leadingPlace_le fits.pos
  have pos : (0 : ℚ) < 2 ^ d.exponent := by positivity
  have step : (10 : ℚ) ^ (leadingPlace d - 16) = 10 ^ leadingPlace d / 10 ^ 16 := by
    rw [zpow_sub₀ (by decide)]
    rfl
  have lt : (d.mantissa : ℚ) < 2 ^ 53 := by exact_mod_cast fits.lt
  rw [step, div_lt_iff₀ (by norm_num)]
  refine lt_of_le_of_lt below ?_
  unfold Dyadic.value Dyadic.high Dyadic.low
  split
  · next binade =>
    have le : (d.mantissa : ℚ) ≤ 2 ^ 52 := by exact_mod_cast fits.binade binade
    nlinarith
  · nlinarith

/-- **The shortest decimal** rounds to the double. -/
theorem rounds_shortest (fits : d.Fits) : d.Rounds (shortest d).value := by
  have hit : (onGrid? d (leadingPlace d - (16 : Nat))).isSome := by
    by_contra none
    rw [Option.not_isSome_iff_eq_none] at none
    exact absurd (step_of_onGrid_none fits.pos none) (not_le.2 (step_lt fits))
  obtain ⟨p, c, found, eq⟩ := search_hits (show 16 < 17 by decide) hit
  rw [shortest, eq, value_stripZeros]
  exact rounds_of_onGrid fits.pos found

theorem value_shortest_pos (fits : d.Fits) : 0 < (shortest d).value :=
  fits.low_pos.trans_le (rounds_shortest fits).le.1

end Search

/-! ## The doubles in order -/

namespace Dyadic

/-- The doubles from zero on, by their bits. -/
def nth (n : Nat) : Dyadic :=
  if n / 2 ^ 52 = 0 then ⟨n % 2 ^ 52, -1074, false⟩
  else ⟨2 ^ 52 + n % 2 ^ 52, (n / 2 ^ 52 : Nat) - 1075, n % 2 ^ 52 = 0 && 1 < n / 2 ^ 52⟩

theorem ofBits_eq (bits : UInt64) : ofBits bits = nth (bits.toNat % 2 ^ 63) := by
  have lt := bits.toNat_lt
  have field : bits.toNat % 2 ^ 63 / 2 ^ 52 = bits.toNat / 2 ^ 52 % 2 ^ 11 := by omega
  have fraction : bits.toNat % 2 ^ 63 % 2 ^ 52 = bits.toNat % 2 ^ 52 := by omega
  rw [nth, field, fraction]
  rfl

theorem mantissa_nth (n : Nat) : (nth n).mantissa % 2 = n % 2 := by
  unfold nth
  split
  · show n % 2 ^ 52 % 2 = n % 2
    omega
  · show (2 ^ 52 + n % 2 ^ 52) % 2 = n % 2
    omega

theorem fits_nth {n : Nat} (pos : 0 < n) : (nth n).Fits := by
  unfold nth
  split
  · next zero =>
    refine ⟨?_, ?_, nofun⟩
    · show 0 < n % 2 ^ 52
      omega
    · show n % 2 ^ 52 < 2 ^ 53
      omega
  · refine ⟨?_, ?_, fun binade => ?_⟩
    · show 0 < 2 ^ 52 + n % 2 ^ 52
      omega
    · show 2 ^ 52 + n % 2 ^ 52 < 2 ^ 53
      omega
    · have zero : n % 2 ^ 52 = 0 := by
        simp at binade
        exact binade.1
      show 2 ^ 52 + n % 2 ^ 52 ≤ 2 ^ 52
      omega

section Neighbours

variable {d e : Dyadic}

theorem high_eq_low (exponent : e.exponent = d.exponent) (mantissa : e.mantissa = d.mantissa + 1)
    (binade : e.binade = false) : d.high = e.low := by
  rw [high, low, exponent, mantissa, binade, if_neg Bool.false_ne_true]
  push_cast
  ring

/-- Where the gaps change, the gap below is half the gap above. -/
theorem high_eq_low_binade (exponent : e.exponent = d.exponent + 1) (mantissa : 2 * e.mantissa = d.mantissa + 1)
    (binade : e.binade = true) : d.high = e.low := by
  have twice : (d.mantissa : ℚ) = 2 * e.mantissa - 1 := by
    rw [eq_sub_iff_add_eq]
    exact_mod_cast mantissa.symm
  rw [high, low, exponent, twice, binade, if_pos rfl, zpow_add₀ (by decide)]
  ring

end Neighbours

/-- **Neighbours** meet half-way. -/
theorem high_nth (n : Nat) : (nth n).high = (nth (n + 1)).low := by
  by_cases last : n % 2 ^ 52 + 1 = 2 ^ 52
  · have field : (n + 1) / 2 ^ 52 = n / 2 ^ 52 + 1 := by omega
    have fraction : (n + 1) % 2 ^ 52 = 0 := by omega
    by_cases zero : n / 2 ^ 52 = 0
    · -- the numbers without the leading bit end where the gaps do not change yet
      rw [nth, nth, field, fraction, if_pos zero, if_neg (Nat.succ_ne_zero _), zero]
      exact high_eq_low rfl last.symm rfl
    · rw [nth, nth, field, fraction, if_neg zero, if_neg (Nat.succ_ne_zero _)]
      apply high_eq_low_binade
      · show ((n / 2 ^ 52 + 1 : Nat) : Int) - 1075 = (n / 2 ^ 52 : Nat) - 1075 + 1
        omega
      · show 2 * (2 ^ 52 + 0) = 2 ^ 52 + n % 2 ^ 52 + 1
        omega
      · exact decide_eq_true (show 1 < n / 2 ^ 52 + 1 by omega)
  · have field : (n + 1) / 2 ^ 52 = n / 2 ^ 52 := by omega
    have fraction : (n + 1) % 2 ^ 52 = n % 2 ^ 52 + 1 := by omega
    rw [nth, nth, field, fraction]
    by_cases zero : n / 2 ^ 52 = 0
    · rw [if_pos zero, if_pos zero]
      exact high_eq_low rfl rfl rfl
    · rw [if_neg zero, if_neg zero]
      exact high_eq_low rfl rfl rfl

theorem strictMono_low : StrictMono fun n => (nth n).low := by
  apply strictMono_nat_of_lt_succ
  intro n
  rw [← high_nth]
  exact (low_lt_value _).trans (value_lt_high _)

/-- **A number rounds to one double only.** -/
theorem Rounds.unique {m n : Nat} {x : ℚ} (a : (nth m).Rounds x) (b : (nth n).Rounds x) : m = n := by
  wlog lt : m < n generalizing m n
  · rcases Nat.lt_or_eq_of_le (Nat.le_of_not_lt lt) with lt | eq
    · exact (this b a lt).symm
    · exact eq.symm
  exfalso
  have below : (nth m).high ≤ (nth n).low := by
    rw [high_nth]
    exact strictMono_low.monotone lt
  have meet : (nth m).high = (nth n).low := le_antisymm below (b.le.1.trans a.le.2)
  have next : m + 1 = n := by
    rw [high_nth] at meet
    exact strictMono_low.injective meet
  -- both would have to own the end that they share
  unfold Rounds at a b
  rw [mantissa_nth] at a b
  by_cases even : m % 2 = 0
  · rw [if_neg (by omega)] at b
    rw [if_pos even] at a
    linarith
  · rw [if_neg even] at a
    have := b
    split at b <;> linarith

end Dyadic

/-- **The shortest decimal tells the double** that it was made from. -/
theorem magnitude_of_shortest {a b : UInt64} (pos : 0 < a.toNat % 2 ^ 63) (pos' : 0 < b.toNat % 2 ^ 63)
    (eq : (shortest (.ofBits a)).value = (shortest (.ofBits b)).value) : a.toNat % 2 ^ 63 = b.toNat % 2 ^ 63 := by
  rw [Dyadic.ofBits_eq, Dyadic.ofBits_eq] at eq
  have rounds := rounds_shortest (Dyadic.fits_nth pos)
  have rounds' := rounds_shortest (Dyadic.fits_nth pos')
  rw [← eq] at rounds'
  exact rounds.unique rounds'

end ResponseCache.Decimal
