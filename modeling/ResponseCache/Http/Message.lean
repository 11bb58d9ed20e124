import ResponseCache.Http.Header
import ResponseCache.Json.Printer

/-!
# Requests and responses

A body is a stream: chunks that arrive one by one, and possibly a failure after the last of them.
-/

namespace ResponseCache.Http

structure Body where
  chunks : List ByteArray
  /-- Why the stream breaks off after its chunks, if it does. -/
  failure : Option String := none
  deriving Inhabited

namespace Body

def empty : Body := ⟨[], none⟩

/-- A body that is there as a whole. -/
def ofBytes (bytes : ByteArray) : Body := ⟨[bytes], none⟩

/-- All bytes that arrive. -/
def bytes (b : Body) : ByteArray := b.chunks.foldl (fun all chunk => all ++ chunk) ByteArray.empty

/-- All bytes of a stream that ends well. -/
def collect (b : Body) : Except String ByteArray :=
  match b.failure with
  | none => .ok b.bytes
  | some reason => .error reason

end Body

/-- Where a request goes: a path, and what stands behind the question mark. -/
structure Target where
  path : String
  query : Option String := none
  /-- The scheme and the authority, if they were sent too. -/
  origin : String := ""
  deriving Repr, DecidableEq, Inhabited

namespace Target

def isSchemeChar (c : Char) : Bool := c.isAlphanum || c == '+' || c == '-' || c == '.'

/-- The scheme and the authority of a target that names them, and what follows. -/
def splitOrigin (text : List Char) : String × List Char :=
  let scheme := text.takeWhile isSchemeChar
  match text.dropWhile isSchemeChar with
  | ':' :: '/' :: '/' :: rest =>
    let ends (c : Char) := c == '/' || c == '?' || c == '#'
    (String.ofList (scheme ++ [':', '/', '/'] ++ rest.takeWhile fun c => !ends c), rest.dropWhile fun c => !ends c)
  | _ => ("", text)

/-- Reads a target. A fragment is cut off; behind an authority the path is `/` if there is none. -/
def parse (text : String) : Target :=
  let (origin, rest) := splitOrigin text.toList
  let cs := rest.takeWhile (· != '#')
  let path := String.ofList (cs.takeWhile (· != '?'))
  { path := if origin != "" && path == "" then "/" else path
    query := (cs.dropWhile (· != '?')).tail?.map String.ofList
    origin := origin }

def text (t : Target) : String :=
  t.origin ++ t.path ++
    match t.query with
    | none => ""
    | some query => "?" ++ query

end Target

structure Request where
  method : String
  target : Target
  headers : Headers
  body : Body
  deriving Inhabited

structure Response where
  status : UInt16
  headers : Headers
  body : Body
  deriving Inhabited

namespace Response

/-- A status and nothing else. -/
def bare (status : UInt16) : Response := ⟨status, .empty, .empty⟩

/-- A text of a content type. -/
def ofText (status : UInt16) (contentType text : String) : Response :=
  ⟨status, Headers.empty.insert "content-type" (Text.encode contentType), .ofBytes (Text.encode text)⟩

def json (status : UInt16) (value : Json) : Response := ofText status "application/json" value.render

/-- Whether the status tells of success. -/
def isSuccess (r : Response) : Bool := 200 ≤ r.status && r.status < 300

/-- The response with one field in the place of all of its name. -/
def withHeader (r : Response) (name value : String) : Response :=
  { r with headers := r.headers.insert name (Text.encode value) }

end Response

end ResponseCache.Http
