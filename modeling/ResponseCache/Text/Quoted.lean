import ResponseCache.Text.Printable

/-!
# Quoted text for inspection

`inspect` shows a text between quotes on one line: quote and backslash behind a backslash, the usual short forms for
tab, line feed, carriage return and NUL, every other character that does not show by itself by its code point.
-/

namespace ResponseCache.Text

def inspectChar (c : Char) : List Char :=
  match c with
  | '"' => ['\\', '"']
  | '\\' => ['\\', '\\']
  | '\t' => ['\\', 't']
  | '\n' => ['\\', 'n']
  | '\r' => ['\\', 'r']
  | '\x00' => ['\\', '0']
  | c => if isPrintable c then [c] else ['\\', 'u', '{'] ++ Nat.toDigits 16 c.toNat ++ ['}']

def inspect (s : String) : String := "\"" ++ String.ofList (s.toList.flatMap inspectChar) ++ "\""

end ResponseCache.Text
