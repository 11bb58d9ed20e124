/-!
# The shortest decimal that reads back as a double

A finite double is `m · 2 ^ q` (`Dyadic`). The reals that round to it form an interval around it, whose ends belong
to it when `m` is even. `shortest` tries 1, 2, … 17 significant digits: on each decimal grid it looks at the two grid
points around the value, and takes the first grid on which one of them lies in the interval; of two such points the
nearer, of two equally near the even one. All comparisons are made in exact integer arithmetic.
-/

namespace ResponseCache.Decimal

/-- The number `mantissa · 2 ^ exponent`; `binade` tells that the gap below it is half the gap above. -/
structure Dyadic where
  mantissa : Nat
  exponent : Int
  binade : Bool
  deriving Repr, DecidableEq

/-- The magnitude of a finite double, from its bits. -/
def Dyadic.ofBits (bits : UInt64) : Dyadic :=
  let field : Nat := bits.toNat / Nat.pow 2 52 % Nat.pow 2 11
  let fraction : Nat := bits.toNat % Nat.pow 2 52
  if field = 0 then ⟨fraction, -1074, false⟩
  else ⟨Nat.pow 2 52 + fraction, (field : Int) - 1075, fraction = 0 && 1 < field⟩

/-- The decimal `coefficient · 10 ^ exponent`. -/
structure Digits where
  coefficient : Nat
  exponent : Int
  deriving Repr, DecidableEq

/-- The value times `4 · 10 ^ -p`, with quarter units for the ends of the interval: `(low, value, high)` over one
denominator. -/
def scaled (d : Dyadic) (p : Int) : Nat × Nat × Nat × Nat :=
  let up := Nat.pow 2 d.exponent.toNat * Nat.pow 10 (-p).toNat
  let den := 4 * Nat.pow 2 (-d.exponent).toNat * Nat.pow 10 p.toNat
  let below := if d.binade then 1 else 2
  ((4 * d.mantissa - below) * up, 4 * d.mantissa * up, (4 * d.mantissa + 2) * up, den)

/-- The grid point of step `10 ^ p` chosen for `d`, if one of the two around `d` rounds to `d`. -/
def onGrid? (d : Dyadic) (p : Int) : Option Nat :=
  let (low, value, high, den) := scaled d p
  let even := d.mantissa % 2 = 0
  let floor := value / den
  let below := if even then low ≤ floor * den else low < floor * den
  let above := if even then (floor + 1) * den ≤ high else (floor + 1) * den < high
  let left := value - floor * den
  let right := (floor + 1) * den - value
  if below ∧ above then
    some (if left < right ∨ (left = right ∧ floor % 2 = 0) then floor else floor + 1)
  else if below then some floor
  else if above then some (floor + 1)
  else none

/-- The place of the leading digit: the `k` with `10 ^ k ≤ d < 10 ^ (k + 1)`. -/
def leadingPlace (d : Dyadic) : Int :=
  let num := d.mantissa * Nat.pow 2 d.exponent.toNat
  let den := Nat.pow 2 (-d.exponent).toNat
  if den ≤ num then ((Nat.toDigits 10 (num / den)).length : Int) - 1
  else
    let places := (Nat.toDigits 10 (den / num)).length
    if den ≤ num * Nat.pow 10 (places - 1) then -((places : Int) - 1) else -(places : Int)

/-- Takes off the zeros at the end of a coefficient. -/
def stripZeros (coefficient : Nat) (exponent : Int) : Nat → Digits
  | 0 => ⟨coefficient, exponent⟩
  | fuel + 1 =>
    if coefficient % 10 = 0 then stripZeros (coefficient / 10) (exponent + 1) fuel else ⟨coefficient, exponent⟩

/-- The first hit among `count` more grids, `step` being the next one. -/
def search (d : Dyadic) (step : Int) : Nat → Digits
  | 0 => ⟨d.mantissa, 0⟩
  | count + 1 =>
    match onGrid? d step with
    | some c => stripZeros c step 18
    | none => search d (step - 1) count

/-- The shortest decimal that rounds to the positive number `d`. Seventeen digits always suffice for a double. -/
def shortest (d : Dyadic) : Digits := search d (leadingPlace d) 17

end ResponseCache.Decimal
