import ResponseCache.Key.Request

/-!
# How a route composes its keys

A rule selects, for each field set of a request, which fields take part in the key, or replaces the key altogether:
by a fixed text, or by a text derived from the request.
-/

namespace ResponseCache

/-- Which fields of a field set take part in a key. -/
inductive Selection where
  | exclude
  | all
  | only (names : List String)
  deriving Repr, DecidableEq

/-- Whether a name is selected, names being compared after `fold`. -/
def Selection.includes (s : Selection) (fold : String → String) (name : String) : Bool :=
  match s with
  | exclude => false
  | all => true
  | only names => names.any fun n => fold n == fold name

/-- A part of a derived key: a fixed text or a fact of the request, with a text to stand in for a missing one. -/
inductive KeyPart where
  | literal (text : String)
  | method
  | route
  | header (name fallback : String)
  | param (name fallback : String)
  | query (name fallback : String)
  deriving Repr, DecidableEq

def KeyPart.text (r : KeyRequest) : KeyPart → String
  | literal text => text
  | method => r.method
  | route => r.route
  | header name fallback => (r.header? name).getD fallback
  | param name fallback => (r.param? name).getD fallback
  | query name fallback => (r.query? name).getD fallback

/-- A key that replaces the generated one. -/
inductive KeyOverride where
  | literal (key : String)
  | derived (key : KeyRequest → String)

namespace KeyOverride

/-- The key put together from parts. -/
def ofParts (parts : List KeyPart) : KeyOverride :=
  derived fun r => parts.foldl (fun key part => key ++ part.text r) ""

def resolve (r : KeyRequest) : KeyOverride → String
  | literal key => key
  | derived key => key r

end KeyOverride

structure KeyRule where
  params : Selection := .all
  query : Selection := .exclude
  body : Selection := .exclude
  headers : Selection := .exclude
  override : Option KeyOverride := none

namespace KeyRule

/-- Whether the body must be read to derive a key. -/
def needsBody (rule : KeyRule) : Bool := rule.override.isNone && rule.body != .exclude

/-- Whether the key of a request covers every selected body field. Single fields cannot be read from a body that is no
JSON object, so such a request has no key. -/
def canKey (rule : KeyRule) (r : KeyRequest) : Bool :=
  rule.override.isSome ||
    match rule.body, r.body, r.rawBody with
    | .only _, some (.object _), _ => true
    | .only _, some _, _ => false
    | .only _, none, some _ => false
    | _, _, _ => true

end KeyRule

end ResponseCache
