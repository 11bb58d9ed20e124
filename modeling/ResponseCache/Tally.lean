import ResponseCache.Json.Basic
import ResponseCache.Lru.Stats

/-!
# The tally of outcomes

How many requests ended in each way, in 64-bit words, and the report that joins the tally with the statistics of the
store.
-/

namespace ResponseCache

/-- What is counted about a request. -/
inductive Outcome where
  /-- Served from the cache. -/
  | hit
  /-- Computed by the holder of the lock, or after waiting in vain. -/
  | miss
  /-- Served what another request computed. -/
  | wait
  /-- Computed without the cache. -/
  | bypass
  /-- Refused while the key was being computed. -/
  | rejection
  /-- The store failed, and the request was served all the same. -/
  | backendError
  deriving Repr, DecidableEq

structure Tally where
  hits : UInt64 := 0
  misses : UInt64 := 0
  waits : UInt64 := 0
  bypasses : UInt64 := 0
  rejections : UInt64 := 0
  backendErrors : UInt64 := 0
  deriving Repr, DecidableEq, Inhabited

namespace Tally

def count (t : Tally) : Outcome → Tally
  | .hit => { t with hits := t.hits + 1 }
  | .miss => { t with misses := t.misses + 1 }
  | .wait => { t with waits := t.waits + 1 }
  | .bypass => { t with bypasses := t.bypasses + 1 }
  | .rejection => { t with rejections := t.rejections + 1 }
  | .backendError => { t with backendErrors := t.backendErrors + 1 }

/-- The requests answered without running a handler for them. -/
def served (t : Tally) : Except Crash UInt64 := Words.add t.hits t.waits

/-- All requests whose way was decided. -/
def resolved (t : Tally) : Except Crash UInt64 := do
  let computed ← Words.add (← t.served) t.misses
  Words.add (← Words.add computed t.bypasses) t.rejections

/-- The share of requests answered without running a handler, zero before the first request. -/
def rate (t : Tally) : Except Crash Float := do
  let served ← t.served
  let resolved ← t.resolved
  return if 0 < resolved then served.toFloat / resolved.toFloat else 0

/-- The counters as JSON fields. -/
def fields (t : Tally) : List (String × Json) :=
  [("hits", .ofNat t.hits.toNat), ("misses", .ofNat t.misses.toNat), ("waits", .ofNat t.waits.toNat),
    ("bypasses", .ofNat t.bypasses.toNat), ("rejections", .ofNat t.rejections.toNat),
    ("backend_errors", .ofNat t.backendErrors.toNat)]

end Tally

/-- The statistics of a bounded cache as JSON. -/
def Lru.Stats.json (s : Lru.Stats) : Except Crash Json := do
  return .object [("size", .ofNat s.size), ("max_size", .ofNat s.maxSize), ("hits", .ofNat s.hits.toNat),
    ("misses", .ofNat s.misses.toNat), ("evictions", .ofNat s.evictions.toNat), ("hit_rate", .ofDouble (← s.hitRate))]

/-- The tally of a service, with the statistics of its store unless the store failed to give them. -/
structure Report where
  tally : Tally := {}
  storage : Option Lru.Stats := none

namespace Report

def storageField (r : Report) : Except Crash (String × Json) := do
  return ("storage", (← r.storage.mapM Lru.Stats.json).getD .null)

/-- The report as it was taken. -/
def json (r : Report) : Except Crash Json := do
  return .object (r.tally.fields ++ [← r.storageField])

/-- The report with the share of requests that were served without a handler. -/
def summary (r : Report) : Except Crash Json := do
  return .object (r.tally.fields ++ [("hit_rate", .ofDouble (← r.tally.rate)), ← r.storageField])

end Report

end ResponseCache
