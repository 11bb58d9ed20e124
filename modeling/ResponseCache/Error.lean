/-!
# Errors of the cache

Each error is a cause; `CacheError.message` gives its wording.
-/

namespace ResponseCache

inductive CacheError where
  /-- A bounded cache was to be created or resized with no room at all. -/
  | invalidCapacity (capacity : Nat)
  /-- The backing store failed an operation. -/
  | backend (reason : String)
  /-- A response body could not be captured. -/
  | serialization (reason : String)
  /-- A payload could not be compressed or inflated. -/
  | compression (reason : String)
  /-- Another request holds the lock of the key, under the policy that refuses. -/
  | lockContended (retryAfter : Nat)
  /-- A validator could not be compiled. -/
  | compile (reason : String)
  | internal (reason : String)
  deriving Repr, DecidableEq

namespace CacheError

def message : CacheError → String
  | invalidCapacity n => s!"Invalid capacity: {n} (must be greater than zero)"
  | backend reason => "Cache backend error: " ++ reason
  | serialization reason => "Serialization error: " ++ reason
  | compression reason => "Compression error: " ++ reason
  | lockContended _ => "Cache computation in progress"
  | compile reason => "Compile error: " ++ reason
  | internal reason => "Internal error: " ++ reason

end CacheError

end ResponseCache
