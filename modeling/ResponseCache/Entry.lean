/-!
# Stored responses and entries

An entry is a response with the instant from which it is no longer served, the tags it can be dropped by, and whether
its body is stored compressed. Instants and durations are whole milliseconds.
-/

namespace ResponseCache

/-- A duration in milliseconds. -/
abbrev Millis := Nat

/-- An instant, in milliseconds since the clock started. -/
abbrev Instant := Nat

/-- A captured response, replayed as it is on a hit. -/
structure StoredResponse where
  status : UInt16
  contentType : Option String
  body : ByteArray
  deriving Inhabited

namespace StoredResponse

/-- A JSON document answered with status 200. -/
def json (body : ByteArray) : StoredResponse := ⟨200, some "application/json", body⟩

end StoredResponse

structure Entry where
  /-- The response; its body is gzip data when `compressed` holds. -/
  value : StoredResponse
  /-- From this instant on the entry is no longer served. -/
  deadline : Instant
  tags : List String := []
  compressed : Bool := false
  deriving Inhabited

namespace Entry

/-- An entry is expired once the clock reaches its deadline. -/
def isExpired (e : Entry) (now : Instant) : Bool := e.deadline ≤ now

/-- What is left of the lifetime, zero once expired. -/
def remaining (e : Entry) (now : Instant) : Millis := e.deadline - now

end Entry

end ResponseCache
