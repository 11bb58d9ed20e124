import ResponseCache.Words

/-!
# Statistics of a bounded cache

Counters are 64-bit words: hits, misses and evictions since the last reset. A snapshot adds how full the cache is and
the share of lookups that were hits.
-/

namespace ResponseCache.Lru

structure Stats where
  size : Nat := 0
  maxSize : Nat := 0
  hits : UInt64 := 0
  misses : UInt64 := 0
  evictions : UInt64 := 0
  /-- The rate, or how its computation crashed. -/
  hitRate : Except Crash Float := .ok 0
  deriving Repr, Inhabited

namespace Stats

/-- The number of lookups counted. -/
def lookups (s : Stats) : Except Crash UInt64 := Words.add s.hits s.misses

/-- The share of lookups that were hits, zero when nothing was looked up. -/
def rate (s : Stats) : Except Crash Float := do
  let lookups ← s.lookups
  return if lookups = 0 then 0 else s.hits.toFloat / lookups.toFloat

/-! ## Counting

A cache counts from zero, and no run is long enough to fill a word (`record_of_room`). -/

def hit (s : Stats) : Stats := { s with hits := s.hits + 1 }

def miss (s : Stats) : Stats := { s with misses := s.misses + 1 }

def eviction (s : Stats) : Stats := { s with evictions := s.evictions + 1 }

/-- What a cache counts. -/
inductive Event where
  | hit
  | miss
  | eviction
  deriving Repr, DecidableEq

/-- Counts an event in counters that may hold anything. -/
def record (s : Stats) : Event → Except Crash Stats
  | .hit => return { s with hits := ← Words.add s.hits 1 }
  | .miss => return { s with misses := ← Words.add s.misses 1 }
  | .eviction => return { s with evictions := ← Words.add s.evictions 1 }

/-- The counters with the occupancy filled in and the rate computed. -/
def snapshot (s : Stats) (size maxSize : Nat) : Stats :=
  { s with size := size, maxSize := maxSize, hitRate := s.rate }

end Stats

end ResponseCache.Lru
