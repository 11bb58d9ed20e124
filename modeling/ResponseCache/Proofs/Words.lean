import Mathlib.Algebra.Group.Nat.Defs
import ResponseCache.Words

/-!
# Words that count

A 64-bit word that counts up from zero is the number of counts, until they fill the word. Words added up one after the
other are their sum if that fits a word, and crash otherwise, wherever on the way that shows (`fit_bind_add`).
-/

namespace ResponseCache.Words

theorem toNat_ofNat {n : Nat} (h : n < 2 ^ 64) : (UInt64.ofNat n).toNat = n := by
  rw [UInt64.toNat_ofNat', Nat.mod_eq_of_lt h]

theorem eq_zero_iff {n : UInt64} : n = 0 ↔ n.toNat = 0 := UInt64.toNat_inj.symm

theorem ofNat_succ (n : Nat) : UInt64.ofNat (n + 1) = UInt64.ofNat n + 1 := by
  rw [UInt64.ofNat_add]
  rfl

/-- There is room for one more. -/
theorem lt_succ {n : Nat} (h : n + 1 < 2 ^ 64) : UInt64.ofNat n < UInt64.ofNat n + 1 := by
  rw [← ofNat_succ, UInt64.lt_iff_toNat_lt, toNat_ofNat (Nat.lt_of_succ_lt h), toNat_ofNat h]
  exact Nat.lt_succ_self n

/-! ## Sums -/

theorem fit_of_lt {n : Nat} (fits : n < 2 ^ 64) : fit n = .ok (.ofNat n) := if_pos fits

theorem fit_of_le {n : Nat} (full : 2 ^ 64 ≤ n) : fit n = .error .overflow := if_neg (Nat.not_lt_of_le full)

/-- **One more summand**, if there was a sum so far. -/
theorem fit_bind_add (n : Nat) (b : UInt64) : (do Words.add (← fit n) b) = fit (n + b.toNat) := by
  by_cases fits : n < 2 ^ 64
  · rw [fit_of_lt fits]
    show fit ((UInt64.ofNat n).toNat + b.toNat) = _
    rw [toNat_ofNat fits]
  · have full : 2 ^ 64 ≤ n := Nat.le_of_not_lt fits
    rw [fit_of_le full, fit_of_le (Nat.le_trans full (Nat.le_add_right ..))]
    rfl

end ResponseCache.Words
