import ResponseCache.Store.Basic

/-!
# Operations on the backing store

The ten requests that a service makes of its store, each with the type of its answer, and how a store in memory carries
them out (`Store.perform`). A store behind a network would answer the same requests, or fail.
-/

namespace ResponseCache

inductive Operation where
  | get (key : String)
  | set (key : String) (entry : Entry)
  | delete (key : String)
  | acquire (key : String) (timeout : Millis)
  | release (key : String) (token : Token)
  | invalidateTag (tag : String)
  | clear
  | purge
  | stats
  | resetStats

namespace Operation

/-- What an operation answers when it succeeds. -/
abbrev Result : Operation → Type
  | get _ => Option Entry
  | set _ _ => Unit
  | delete _ => Bool
  | acquire _ _ => Option Token
  | release _ _ => Unit
  | invalidateTag _ => Nat
  | clear => Unit
  | purge => Nat
  | stats => Lru.Stats
  | resetStats => Unit

def name : Operation → String
  | get _ => "get"
  | set _ _ => "set"
  | delete _ => "delete"
  | acquire _ _ => "acquire_lock"
  | release _ _ => "release_lock"
  | invalidateTag _ => "invalidate_tag"
  | clear => "clear"
  | purge => "purge_expired"
  | stats => "stats"
  | resetStats => "reset_stats"

end Operation

/-- Carries out one operation at an instant. A store in memory never fails. -/
def Store.perform (s : Store) (now : Instant) : (op : Operation) → op.Result × Store
  | .get key => s.get now key
  | .set key entry => ((), s.set key entry)
  | .delete key => s.delete key
  | .acquire key timeout => s.acquire now key timeout
  | .release key token => ((), (s.release key token).2)
  | .invalidateTag tag => s.invalidateTag tag
  | .clear => ((), s.clear)
  | .purge => s.cleanup now
  | .stats => (s.stats, s)
  | .resetStats => ((), s.resetStats)

end ResponseCache
