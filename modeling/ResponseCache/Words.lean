/-!
# Words

Counters are 64-bit words. A sum that no word can hold is no sum: the computation that asks for it crashes.
-/

namespace ResponseCache

/-- What ends a computation without a result. -/
inductive Crash where
  /-- A sum that no word can hold. -/
  | overflow
  deriving Repr, DecidableEq

def Crash.message : Crash → String
  | overflow => "attempt to add with overflow"

namespace Words

/-- The word that is a number. -/
def fit (n : Nat) : Except Crash UInt64 := if n < UInt64.size then .ok (.ofNat n) else .error .overflow

/-- The sum of two words. -/
def add (a b : UInt64) : Except Crash UInt64 := fit (a.toNat + b.toNat)

end Words

end ResponseCache
