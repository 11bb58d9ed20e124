import ResponseCache.Json.Basic

/-!
# What a key can be derived from

The facts of one request: method, route template, resolved path parameters, query pairs, headers and the body, as JSON
when it is JSON and as bytes when it is not.
-/

namespace ResponseCache

structure KeyRequest where
  method : String
  /-- The template that the path matched, such as `/users/:id`. -/
  route : String
  params : List (String × String) := []
  query : List (String × String) := []
  headers : List (String × String) := []
  /-- The JSON body, when it was read. -/
  body : Option Json := none
  /-- A body that was read and is not JSON. -/
  rawBody : Option ByteArray := none

namespace KeyRequest

/-- The first header of a name, whatever the case of its letters. -/
def header? (r : KeyRequest) (name : String) : Option String :=
  (r.headers.find? fun h => h.1.toLower == name.toLower).map (·.2)

def param? (r : KeyRequest) (name : String) : Option String := r.params.lookup name

def query? (r : KeyRequest) (name : String) : Option String := r.query.lookup name

end KeyRequest

end ResponseCache
