import ResponseCache.Program

/-!
# Resolutions

What a request has to do for its key after the look-up and the attempt to lock it.
-/

namespace ResponseCache

/-- How a response came about, as it is marked. -/
inductive Mark where
  | hit
  | miss
  | wait
  | bypass
  deriving Repr, DecidableEq

def Mark.text : Mark → String
  | hit => "HIT"
  | miss => "MISS"
  | wait => "WAIT"
  | bypass => "BYPASS"

/-- A computation that the request has to carry out. -/
structure Computation where
  /-- The lock it holds, to be released after storing. -/
  guard : Option Guard
  mark : Mark
  /-- Whether a successful response is stored. -/
  store : Bool
  deriving Repr, DecidableEq

namespace Computation

/-- The computation of the holder of the lock. -/
def locked (g : Guard) : Computation := ⟨some g, .miss, true⟩

/-- The computation of a request that waited in vain: it stores, but holds no lock. -/
def overdue : Computation := ⟨none, .miss, true⟩

/-- A computation that leaves the cache alone. -/
def bypassing : Computation := ⟨none, .bypass, false⟩

/-- Releases the lock, if there is one. -/
def release (c : Computation) : Program Unit :=
  match c.guard with
  | some g => g.release
  | none => pure ()

end Computation

inductive Resolution where
  /-- A live stored value. -/
  | hit (value : StoredResponse)
  /-- The value that another request stored while this one waited. -/
  | waited (value : StoredResponse)
  | compute (computation : Computation)
  /-- Refused, with a hint when to retry. -/
  | rejected (retryAfter : Nat)

end ResponseCache
