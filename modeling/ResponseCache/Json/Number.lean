import ResponseCache.Decimal.Shortest

/-!
# JSON numbers

A number is an integer of 64 bits, signed or unsigned, or a double. Text without point and exponent that fits 64 bits
is an integer; anything else is a double, and so is `-0`. `Number.text` writes a double with the fewest digits that
read back: positionally when the leading digit stands between `10 ^ -5` and `10 ^ 15`, else with an exponent.
-/

namespace ResponseCache.Json

inductive Number where
  | int (value : Int)
  /-- A finite double, by its bits. -/
  | double (bits : UInt64)
  deriving Repr, DecidableEq

namespace Number

def ofNat (n : Nat) : Number := .int n

/-- The integers are those of 64 bits, signed or unsigned. -/
def intMin : Int := Int64.minValue.toInt

def intMax : Nat := UInt64.size - 1

/-! ## Writing -/

/-- The digits of a positive number, most significant first, and the place of the first one. -/
def digits (bits : UInt64) : List Char × Int :=
  let d := Decimal.shortest (.ofBits bits)
  let cs := Nat.toDigits 10 d.coefficient
  (cs, d.exponent + cs.length - 1)

def isNegative (bits : UInt64) : Bool := bits >>> 63 = 1

/-- Digits whose first one stands at place `e`, laid out positionally; a fraction is always written. -/
def positional (cs : List Char) (e : Int) : List Char :=
  if e < 0 then '0' :: '.' :: (List.replicate (-e - 1).toNat '0' ++ cs)
  else
    let whole := e.toNat + 1
    let cs := cs ++ List.replicate (whole - cs.length) '0'
    let rest := cs.drop whole
    cs.take whole ++ '.' :: (if rest.isEmpty then ['0'] else rest)

/-- Digits with an exponent: the point only if a second digit follows, the sign of the exponent always. -/
def exponential (cs : List Char) (e : Int) : List Char :=
  let fraction := match cs.drop 1 with
    | [] => []
    | rest => '.' :: rest
  cs.take 1 ++ fraction ++ 'e' :: (if e < 0 then '-' else '+') :: Nat.toDigits 10 e.natAbs

def doubleText (bits : UInt64) : List Char :=
  let sign := if isNegative bits then ['-'] else []
  if bits <<< 1 = 0 then sign ++ ['0', '.', '0']
  else
    let (cs, e) := digits bits
    sign ++ (if -5 ≤ e ∧ e ≤ 15 then positional cs e else exponential cs e)

def intText (value : Int) : List Char :=
  if value < 0 then '-' :: Nat.toDigits 10 value.natAbs else Nat.toDigits 10 value.natAbs

/-- The text of a number. -/
def text : Number → List Char
  | .int value => intText value
  | .double bits => doubleText bits

/-! ## Reading -/

/-- Ten to a power of at most 308, rounded to the nearest double. -/
def powerOfTen (k : Nat) : Float := Float.ofScientific 1 false k

/-- Scales down by `10 ^ k`, at most 308 places at a time, rounding after each step. -/
def scaleDown (f : Float) (k : Nat) : Float :=
  if k ≤ 308 then f / powerOfTen k
  else if f == 0 then f
  else scaleDown (f / powerOfTen 308) (k - 308)
termination_by k

/-- The double that `significand · 10 ^ exponent` is read as, or `none` beyond the largest double. The significand is
rounded first and scaled afterwards. -/
def scale? (significand : UInt64) (exponent : Int) : Option Float :=
  let f := significand.toFloat
  if exponent < 0 then some (scaleDown f exponent.natAbs)
  else if 308 < exponent then (if f == 0 then some f else none)
  else
    let scaled := f * powerOfTen exponent.natAbs
    if scaled.isInf then none else some scaled

/-- A double from its sign, significand and decimal exponent. -/
def double? (negative : Bool) (significand : UInt64) (exponent : Int) : Option Number :=
  (scale? significand exponent).map fun f => .double (if negative then (-f).toBits else f.toBits)

/-- Digits gathered into a significand of 64 bits. -/
structure Significand where
  value : Nat
  /-- How many digits were taken. -/
  taken : Nat
  /-- How many digits were left out, from the first one on that would not fit. -/
  dropped : Nat

/-- Gathers digits while the significand fits 64 bits. -/
def gather (s : Significand) (cs : List Char) : Significand :=
  cs.foldl (fun s c =>
    let next := s.value * 10 + (c.toNat - '0'.toNat)
    if s.dropped = 0 ∧ next ≤ intMax then { s with value := next, taken := s.taken + 1 }
    else { s with dropped := s.dropped + 1 }) s

/-- An integer from its sign and digits; beyond 64 bits, and for a negative zero, the double of that value. -/
def ofInteger (negative : Bool) (whole : List Char) : Option Number :=
  let s := gather ⟨0, 0, 0⟩ whole
  if 0 < s.dropped then double? negative s.value.toUInt64 s.dropped
  else if negative then
    if s.value = 0 ∨ (s.value : Int) > -intMin then double? true s.value.toUInt64 0
    else some (.int (-(s.value : Int)))
  else some (.int s.value)

/-- A double from its sign, the digits before and after the point, and its exponent. Digits beyond 64 bits of
significand only move the point (before it) or are left out (after it). -/
def ofDecimal (negative : Bool) (whole fraction : List Char) (exponent : Int) : Option Number :=
  let s := gather ⟨0, 0, 0⟩ whole
  let t := gather ⟨s.value, 0, 0⟩ fraction
  double? negative t.value.toUInt64 ((s.dropped : Int) - t.taken + exponent)

end Number

end ResponseCache.Json
