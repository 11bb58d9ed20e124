import ResponseCache.Http.Buffer
import ResponseCache.Http.Failure
import ResponseCache.Http.Route
import ResponseCache.Json.Parser
import ResponseCache.Key.Sections
import ResponseCache.Route.Rule
import ResponseCache.Service.Basic

/-!
# The middleware

Stands in front of the handlers of an application. For a route with a rule it derives the key of the request, answers
from the cache when it can, and otherwise runs the handler and stores what it answers. Every response of such a route
is marked by how it came about; a refusal is not.
-/

namespace ResponseCache.Middleware

open Http

/-- The longest request body, in bytes, that is read to derive a key. -/
def maxKeyBody : Nat := 1048576

/-- The field that marks a response. -/
def markField : String := "x-cache"

def mark (m : Mark) (r : Response) : Response := r.withHeader markField m.text

/-! ## From the request to its key -/

/-- The header fields that can be read as text. -/
def visibleHeaders (h : Headers) : List (String × String) :=
  h.fields.filterMap fun (name, value) => (visibleText? value).map (name, ·)

/-- The facts of a request that its key may depend on, apart from the body. A field set that the rule leaves out is not
looked at. -/
def facts (rule : KeyRule) (template : String) (params : List (String × String)) (r : Request) : KeyRequest :=
  { method := r.method
    route := template
    params := if rule.params = .exclude then [] else (decodeParams params).getD []
    query := if rule.query = .exclude then [] else Text.formPairs (r.target.query.getD "")
    headers := if rule.headers = .exclude then [] else visibleHeaders r.headers }

/-- Adds what a body says: its JSON value, or its bytes if it is not JSON. -/
def withBody (k : KeyRequest) (bytes : ByteArray) : KeyRequest :=
  match (Text.decode? bytes).bind Json.parse? with
  | some value => { k with body := some value }
  | none => { k with rawBody := if bytes.isEmpty then none else some bytes }

/-- What the key of a request is derived from, and the request that is left for the handler. The body is read only if
the key needs it; `none` means that it is too long, or broke off. -/
def capture (rule : KeyRule) (template : String) (params : List (String × String)) (r : Request) :
    Option (KeyRequest × Request) :=
  let k := facts rule template params r
  if !rule.needsBody then some (k, r)
  else match r.body.buffer maxKeyBody with
    | .complete bytes => some (withBody k bytes, { r with body := .ofBytes bytes })
    | _ => none

/-! ## From the response to the cache, and back -/

/-- What is stored of a response. -/
def stored (r : Response) (bytes : ByteArray) : StoredResponse :=
  ⟨r.status, (r.headers.get? "content-type").bind visibleText?, bytes⟩

/-- Stores a successful response, and tells whether that was done. What is handed on is the same response, unless its
body broke off before it was found too long to be stored. -/
def store (settings : Settings) (rule : RouteRule) (key : String) (r : Response) : Program (Response × Bool) :=
  match r.body.buffer settings.maxResponseBytes with
  | .tooLong body => return ({ r with body := body }, false)
  | .failed reason => return ((CacheError.serialization reason).response, false)
  | .complete bytes => do
    let result ← Service.set settings key (stored r bytes) (rule.ttl.getD settings.defaultTtl) rule.compress rule.tags
    let r := { r with body := .ofBytes bytes }
    match result with
    | .ok () => return (r, true)
    | .error _ =>
      Service.count settings .backendError
      return (r, false)

/-- The response that a stored one stands for. A status that is none is replaced by 200, and a content type that cannot
be sent is left out. -/
def replay (m : Mark) (value : StoredResponse) : Response :=
  let status := if 100 ≤ value.status ∧ value.status ≤ 999 then value.status else 200
  let headers := match value.contentType.bind legalValue? with
    | some contentType => Headers.empty.insert "content-type" contentType
    | none => Headers.empty
  mark m ⟨status, headers, .ofBytes value.body⟩

/-! ## Serving -/

/-- Carries a computation out: runs the handler, stores a successful response if it is to be stored, releases the lock
and marks the response. -/
def carryOut (settings : Settings) (rule : RouteRule) (key : String) (handler : Request → Program Response)
    (r : Request) (c : Computation) : Program Response := do
  let response ← handler r
  let (response, m) ←
    if c.store && response.isSuccess then do
      let (response, done) ← store settings rule key response
      pure (response, if done then c.mark else .bypass)
    else pure (response, c.mark)
  c.release
  return mark m response

/-- Serves a request under the rule of its route. -/
def serve (settings : Settings) (rule : RouteRule) (template : String) (params : List (String × String))
    (handler : Request → Program Response) (r : Request) : Program Response :=
  match capture rule.key template params r with
  | none => return .bare 413
  | some (facts, r) =>
    if !rule.key.canKey facts then do
      Service.count settings .bypass
      return mark .bypass (← handler r)
    else do
      let key := rule.key.build settings.keyStart facts
      let policy := rule.contention.getD settings.contention
      match ← Service.resolve settings key policy (rule.lockTimeout.getD settings.lockTimeout) with
      | .hit value => return replay .hit value
      | .waited value => return replay .wait value
      | .rejected seconds => return (CacheError.lockContended seconds).response
      | .compute c => carryOut settings rule key handler r c

end ResponseCache.Middleware
