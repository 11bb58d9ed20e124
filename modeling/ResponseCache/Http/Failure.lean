import ResponseCache.Error
import ResponseCache.Http.Message

/-!
# Errors as responses

A refusal tells when to retry. All other errors show their message; the status says whose fault it was.
-/

namespace ResponseCache

/-- The status that answers an error. -/
def CacheError.status : CacheError → UInt16
  | invalidCapacity _ | compile _ => 400
  | backend _ => 502
  | lockContended _ => 503
  | serialization _ | compression _ | internal _ => 500

/-- The body that answers an error. -/
def CacheError.document : CacheError → Json
  | e@(lockContended _) => .object [("error", .string "Service Unavailable"), ("message", .string e.message)]
  | e => .object [("error", .string e.message)]

def CacheError.response (e : CacheError) : Http.Response :=
  let response := Http.Response.json e.status e.document
  match e with
  | lockContended seconds => response.withHeader "retry-after" (toString seconds)
  | _ => response

end ResponseCache
