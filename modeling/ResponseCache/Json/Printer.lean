import ResponseCache.Json.Basic

/-!
# Writing JSON

`Json.render` writes a value without blanks. In a string only the quote, the backslash and the control characters below
U+0020 are escaped; every other character stands for itself.
-/

namespace ResponseCache.Json

def hexDigit (n : Nat) : Char := Nat.digitChar n

/-- A character inside a quoted string. -/
def escapeChar (c : Char) : List Char :=
  match c with
  | '"' => ['\\', '"']
  | '\\' => ['\\', '\\']
  | '\n' => ['\\', 'n']
  | '\r' => ['\\', 'r']
  | '\t' => ['\\', 't']
  | '\x08' => ['\\', 'b']
  | '\x0c' => ['\\', 'f']
  | c =>
    if c.toNat < 32 then ['\\', 'u', '0', '0', hexDigit (c.toNat / 16), hexDigit (c.toNat % 16)]
    else [c]

/-- The characters between the quotes. -/
def escape (cs : List Char) : List Char := cs.flatMap escapeChar

def quoted (s : String) : String := "\"" ++ String.ofList (escape s.toList) ++ "\""

mutual

/-- Writes a value behind `out`. -/
def write (out : String) : Json → String
  | .null => out ++ "null"
  | .bool b => out ++ (if b then "true" else "false")
  | .number n => out ++ String.ofList n.text
  | .string s => out ++ quoted s
  | .array items => writeItems (out ++ "[") "" items ++ "]"
  | .object fields => writeFields (out ++ "\x7b") "" fields ++ "\x7d"

/-- Writes items behind `out`, the first one behind `gap` and the others behind commas. -/
def writeItems (out gap : String) : List Json → String
  | [] => out
  | v :: rest => writeItems (write (out ++ gap) v) "," rest

/-- Writes fields behind `out`, the first one behind `gap` and the others behind commas. -/
def writeFields (out gap : String) : List (String × Json) → String
  | [] => out
  | (name, v) :: rest => writeFields (write (out ++ gap ++ quoted name ++ ":") v) "," rest

end

/-- The text of a value. -/
def render (v : Json) : String := write "" v

end ResponseCache.Json
