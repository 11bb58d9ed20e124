import ResponseCache.Json.Printer
import ResponseCache.Key.Rule

/-!
# Building keys

Without an override a key reads `start:METHOD:route`, followed by `:section=json` for each selected section that is not
empty, in the order params, query, body, raw, headers. A section is canonical JSON: fields sorted by name, and a name
given more than once has the sorted list of its values. So neither the order of fields nor the case of header names
changes a key.
-/

namespace ResponseCache

namespace KeyRule

/-- The values of each name, names taken after `fold`. -/
def grouped (fold : String → String) (pairs : List (String × String)) : Std.TreeMap String (List String) :=
  pairs.foldl (fun groups (name, value) => groups.insert (fold name) (value :: groups.getD (fold name) [])) ∅

/-- One value as it is, several as a sorted list. -/
def groupValue : List String → Json
  | [value] => .string value
  | values => .array ((values.mergeSort fun a b => decide (a ≤ b)).map .string)

/-- The section of the selected pairs, if any is selected. -/
def pairSection (fold : String → String) (selection : Selection) (pairs : List (String × String)) : Option Json :=
  let selected := pairs.filter fun p => selection.includes fold p.1
  if selected.isEmpty then none
  else some (.object ((grouped fold selected).toList.map fun (name, values) => (name, groupValue values)))

/-- The selected part of a JSON body. -/
def selectBody : Selection → Json → Option Json
  | .exclude, _ => none
  | .all, body => some body
  | .only names, .object fields => some (.object (fields.filter fun f => (Selection.only names).includes id f.1))
  | .only _, _ => none

/-- The section of a JSON body; null and the empty object count as no body. -/
def bodySection (selection : Selection) (body : Option Json) : Option Json :=
  match body.bind (selectBody selection) with
  | none | some .null | some (.object []) => none
  | some selected => some selected.canonical

/-- The section of a body that is not JSON: its text, or its bytes when they are no text. -/
def rawSection (selection : Selection) (raw : Option ByteArray) : Option Json :=
  match selection, raw with
  | .all, some bytes =>
    if bytes.isEmpty then none
    else match String.fromUTF8? bytes with
      | some text => some (.string text)
      | none => some (.array (bytes.toList.map fun b => .ofNat b.toNat))
  | _, _ => none

/-- The sections of a key, in order. -/
def sections (rule : KeyRule) (r : KeyRequest) : List (String × Option Json) :=
  [("params", pairSection id rule.params r.params), ("query", pairSection id rule.query r.query),
    ("body", bodySection rule.body r.body), ("raw", rawSection rule.body r.rawBody),
    ("headers", pairSection String.toLower rule.headers r.headers)]

def sectionText : String × Option Json → String
  | (_, none) => ""
  | (name, some json) => ":" ++ name ++ "=" ++ json.render

/-- The key of a request under a rule. -/
def build (rule : KeyRule) (start : String) (r : KeyRequest) : String :=
  match rule.override with
  | some override => override.resolve r
  | none =>
    (rule.sections r).foldl (fun key s => key ++ sectionText s) (start ++ ":" ++ r.method.toUpper ++ ":" ++ r.route)

end KeyRule

end ResponseCache
