import ResponseCache.Text.Percent

/-!
# Path templates

In a template `:name` stands for one segment of a path and `*name` for all that is left of it; all other characters
stand for themselves. Paths are matched as they were sent, before percent-decoding.
-/

namespace ResponseCache.Http

namespace Template

inductive Part where
  | literal (c : Char)
  | segment (name : String)
  | rest (name : String)
  deriving Repr, DecidableEq

/-- The parts of a template; `name` holds, in reverse, what was read of the name of a segment. -/
def partsFrom (name : Option (List Char)) : List Char → List Part
  | [] =>
    match name with
    | none => []
    | some read => [.segment (String.ofList read.reverse)]
  | c :: cs =>
    match name with
    | some read =>
      if c = '/' then .segment (String.ofList read.reverse) :: .literal '/' :: partsFrom none cs
      else partsFrom (some (c :: read)) cs
    | none =>
      if c = ':' then partsFrom (some []) cs
      else if c = '*' then [.rest (String.ofList cs)]
      else .literal c :: partsFrom none cs

def parts (template : String) : List Part := partsFrom none template.toList

def Part.name? : Part → Option String
  | literal _ => none
  | segment name => some name
  | rest name => some name

/-- The names of the parameters, in order. -/
def names (template : String) : List String := (parts template).filterMap Part.name?

end Template

/-- Percent-decoded values of path parameters; none at all if one of them is no text. -/
def decodeParams (raw : List (String × String)) : Option (List (String × String)) :=
  raw.mapM fun (name, value) => (Text.percentDecode? value).map (name, ·)

end ResponseCache.Http
