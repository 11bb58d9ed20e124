import ResponseCache.Packing
import ResponseCache.Service.Resolution
import ResponseCache.Settings

/-!
# The service

What requests do with the cache: look a key up, lock it, wait for its value, store a value, and decide by the policy of
the route what to do on a miss (`resolve`). A store that fails never fails a request: the request is computed without
the cache, and the failure is counted.
-/

namespace ResponseCache.Service

/-- The longest time an entry may live: a day. -/
def maxTtl : Millis := 86400000

/-- The time between two look-ups of a request that waits. -/
def pollInterval : Millis := 50

/-- Counts an outcome, if outcomes are counted at all. -/
def count (settings : Settings) (outcome : Outcome) : Program Unit :=
  if settings.enableStats then Program.act (.count outcome) else pure ()

/-- The live value of a key. -/
def get (key : String) : Program (Except CacheError (Option StoredResponse)) := do
  match ← Program.operate (.get key) with
  | .error e => return .error e
  | .ok none => return .ok none
  | .ok (some entry) => return entry.unpack.map some

/-- Takes the lock of a key, unless it is held. -/
def acquire (key : String) (timeout : Millis) : Program (Except CacheError (Option Guard)) := do
  match ← Program.operate (.acquire key timeout) with
  | .error e => return .error e
  | .ok none => return .ok none
  | .ok (some token) =>
    Program.hold ⟨key, token⟩
    return .ok (some ⟨key, token⟩)

/-- Looks a key up again and again until there is a value or the deadline has come, the last time at the deadline; at
most `polls` times. A look-up that fails counts as one that finds nothing. -/
def poll (key : String) (deadline : Instant) : Nat → Program (Option StoredResponse)
  | 0 => return none
  | polls + 1 => do
    match ← get key with
    | .ok (some value) => return some value
    | _ =>
      let now ← Program.clock
      if deadline ≤ now then return none
      else
        Program.sleep (min pollInterval (deadline - now))
        poll key deadline polls

/-- Waits for the value of a key, for as long as `timeout`. -/
def await (key : String) (timeout : Millis) : Program (Option StoredResponse) := do
  let start ← Program.clock
  poll key (start + timeout) (timeout / pollInterval + 2)

/-- Stores a response for `ttl`, at most a day. -/
def set (settings : Settings) (key : String) (value : StoredResponse) (ttl : Millis) (compress : Bool)
    (tags : List String) : Program (Except CacheError Unit) := do
  let (compressed, stored) := value.pack compress settings.compressionThreshold
  let now ← Program.clock
  Program.operate (.set key ⟨stored, now + min ttl maxTtl, tags, compressed⟩)

/-- The way of a request whose store failed: computed without the cache. -/
def degrade (settings : Settings) : Program Resolution := do
  count settings .backendError
  count settings .bypass
  return .compute .bypassing

/-- The whole seconds that a refused client is told to wait: the timeout, rounded up. -/
def retryAfter (timeout : Millis) : Nat := (timeout + 999) / 1000

/-- The way of a request whose key is locked by another one. -/
def contend (settings : Settings) (key : String) (timeout : Millis) : Contention → Program Resolution
  | .wait => do
    match ← await key timeout with
    | some value =>
      count settings .wait
      return .waited value
    | none =>
      count settings .miss
      return .compute .overdue
  | .bypass => do
    count settings .bypass
    return .compute .bypassing
  | .fail => do
    count settings .rejection
    return .rejected (retryAfter timeout)

/-- Looks a key up and, on a miss, locks it or does as the policy says. -/
def resolve (settings : Settings) (key : String) (policy : Contention) (timeout : Millis) : Program Resolution := do
  match ← get key with
  | .error _ => degrade settings
  | .ok (some value) =>
    count settings .hit
    return .hit value
  | .ok none =>
    match ← acquire key timeout with
    | .error _ => degrade settings
    | .ok (some guard) =>
      count settings .miss
      return .compute (.locked guard)
    | .ok none => contend settings key timeout policy

/-! ## Housekeeping -/

/-- The tally, with the statistics of the store if it gives them. -/
def report : Program Report := do
  let storage ← Program.operate .stats
  let tally ← Program.act .readTally
  return ⟨tally, storage.toOption⟩

/-- Zeroes the tally, then asks the store to zero its counters. -/
def resetStats : Program (Except CacheError Unit) := do
  Program.act .clearTally
  Program.operate .resetStats

/-- One round of the sweep: after `seconds`, at least one, the expired entries and abandoned locks are removed. -/
def sweep (seconds : Nat) : Program Unit := do
  Program.sleep (max seconds 1 * 1000)
  let _ ← Program.operate .purge

end ResponseCache.Service
