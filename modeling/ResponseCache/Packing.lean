import ResponseCache.Entry
import ResponseCache.Error
import ResponseCache.Gzip.Member

/-!
# Packing of stored bodies

Bodies that reach the threshold are stored as gzip data, if their route asks for it, and inflated again when they are
served.
-/

namespace ResponseCache

/-- Whether a body of `size` bytes is large enough to be packed. -/
def reachesThreshold (size threshold : Nat) : Bool := threshold ≤ size

/-- Inflates what was packed. -/
def unpack (data : ByteArray) : Except CacheError ByteArray :=
  (Gzip.decompress data).mapError fun e => .compression e.message

/-- What is stored of a response, and whether its body is packed. -/
def StoredResponse.pack (r : StoredResponse) (asked : Bool) (threshold : Nat) : Bool × StoredResponse :=
  if asked && reachesThreshold r.body.size threshold then (true, { r with body := Gzip.compress r.body })
  else (false, r)

/-- The response of an entry, its body inflated. -/
def Entry.unpack (e : Entry) : Except CacheError StoredResponse :=
  if e.compressed then (ResponseCache.unpack e.value.body).map fun body => { e.value with body := body }
  else .ok e.value

end ResponseCache
