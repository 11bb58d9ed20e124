import ResponseCache.Json.Basic

/-!
# Reading JSON

`Json.parse?` accepts exactly the texts of the JSON grammar: no comments, no trailing commas, no leading zeros, no
control character and no lone surrogate in a string. Arrays and objects nest at most `maxDepth` deep. A repeated name
of an object keeps its last value, and the fields of an object come out in increasing order of their names.

Each reader takes the characters that are left and gives back what follows the thing it read.
-/

namespace ResponseCache.Json

/-- How deep arrays and objects may nest. -/
def maxDepth : Nat := 127

def isBlank (c : Char) : Bool := c == ' ' || c == '\n' || c == '\t' || c == '\r'

def skipBlanks (cs : List Char) : List Char := cs.dropWhile isBlank

/-- What follows the word `w`, if the text starts with it. -/
def expect? : List Char → List Char → Option (List Char)
  | [], cs => some cs
  | _ :: _, [] => none
  | w :: ws, c :: cs => if w = c then expect? ws cs else none

/-! ## Strings -/

def hexValue? (c : Char) : Option Nat :=
  if '0' ≤ c ∧ c ≤ '9' then some (c.toNat - '0'.toNat)
  else if 'a' ≤ c ∧ c ≤ 'f' then some (c.toNat - 'a'.toNat + 10)
  else if 'A' ≤ c ∧ c ≤ 'F' then some (c.toNat - 'A'.toNat + 10)
  else none

def hex4? (a b c d : Char) : Option Nat := do
  let a ← hexValue? a
  let b ← hexValue? b
  let c ← hexValue? c
  let d ← hexValue? d
  return ((a * 16 + b) * 16 + c) * 16 + d

/-- The character that stands for itself behind a backslash, or has a short escape. -/
def shortEscape? : Char → Option Char
  | '"' => some '"'
  | '\\' => some '\\'
  | '/' => some '/'
  | 'b' => some '\x08'
  | 'f' => some '\x0c'
  | 'n' => some '\n'
  | 'r' => some '\r'
  | 't' => some '\t'
  | _ => none

def isHighSurrogate (n : Nat) : Bool := 0xD800 ≤ n && n < 0xDC00

def isLowSurrogate (n : Nat) : Bool := 0xDC00 ≤ n && n < 0xE000

/-- The rest of a string behind its opening quote; `done` holds the characters read, in reverse. -/
def stringRest? (done : List Char) : List Char → Option (List Char × List Char)
  | '"' :: cs => some (done.reverse, cs)
  | '\\' :: 'u' :: a :: b :: c :: d :: '\\' :: 'u' :: e :: f :: g :: h :: cs =>
    match hex4? a b c d with
    | none => none
    | some n =>
      if isHighSurrogate n then
        match hex4? e f g h with
        | none => none
        | some m =>
          if isLowSurrogate m then
            stringRest? (Char.ofNat (0x10000 + (n - 0xD800) * 0x400 + (m - 0xDC00)) :: done) cs
          else none
      else if isLowSurrogate n then none
      else stringRest? (Char.ofNat n :: done) ('\\' :: 'u' :: e :: f :: g :: h :: cs)
  | '\\' :: 'u' :: a :: b :: c :: d :: cs =>
    match hex4? a b c d with
    | none => none
    | some n =>
      if isHighSurrogate n || isLowSurrogate n then none else stringRest? (Char.ofNat n :: done) cs
  | '\\' :: e :: cs =>
    match shortEscape? e with
    | none => none
    | some c => stringRest? (c :: done) cs
  | c :: cs => if c.toNat < 32 then none else stringRest? (c :: done) cs
  | [] => none

/-! ## Numbers -/

/-- The exponent behind a number, if there is one: `none` when it is malformed. -/
def exponent? : List Char → Option (Option Int × List Char)
  | c :: cs =>
    if c = 'e' ∨ c = 'E' then
      let (negative, cs) := match cs with
        | '-' :: cs => (true, cs)
        | '+' :: cs => (false, cs)
        | cs => (false, cs)
      let ds := cs.takeWhile Char.isDigit
      if ds.isEmpty then none
      else
        let n : Nat := ds.foldl (fun n c => n * 10 + (c.toNat - '0'.toNat)) 0
        some (some (if negative then -(n : Int) else n), cs.dropWhile Char.isDigit)
    else some (none, c :: cs)
  | [] => some (none, [])

/-- The digits behind a point, if there is one: `none` when the point has none. -/
def fraction? : List Char → Option (Option (List Char) × List Char)
  | '.' :: cs =>
    let ds := cs.takeWhile Char.isDigit
    if ds.isEmpty then none else some (some ds, cs.dropWhile Char.isDigit)
  | cs => some (none, cs)

/-- A number without its sign. -/
def unsigned? (negative : Bool) (cs : List Char) : Option (Number × List Char) := do
  let whole := cs.takeWhile Char.isDigit
  guard (!whole.isEmpty && (whole.length == 1 || whole.head? != some '0'))
  let (fraction, cs) ← fraction? (cs.dropWhile Char.isDigit)
  let (exponent, cs) ← exponent? cs
  let n ← match fraction, exponent with
    | none, none => Number.ofInteger negative whole
    | fraction, exponent => Number.ofDecimal negative whole (fraction.getD []) (exponent.getD 0)
  return (n, cs)

def number? : List Char → Option (Number × List Char)
  | '-' :: cs => unsigned? true cs
  | cs => unsigned? false cs

/-! ## Values -/

/-- A reader of values. -/
abbrev Reader := List Char → Option (Json × List Char)

/-- The items of an array behind its first bracket or a comma; at most `fuel` of them. -/
def items? (value : Reader) (done : List Json) : Nat → List Char → Option (List Json × List Char)
  | 0, _ => none
  | fuel + 1, cs =>
    match value (skipBlanks cs) with
    | none => none
    | some (v, cs) =>
      match skipBlanks cs with
      | ',' :: cs => items? value (v :: done) fuel cs
      | ']' :: cs => some ((v :: done).reverse, cs)
      | _ => none

/-- The fields of an object behind its first brace or a comma; at most `fuel` of them. -/
def fields? (value : Reader) (done : List (String × Json)) : Nat → List Char →
    Option (List (String × Json) × List Char)
  | 0, _ => none
  | fuel + 1, cs =>
    match skipBlanks cs with
    | '"' :: cs =>
      match stringRest? [] cs with
      | none => none
      | some (name, cs) =>
        match skipBlanks cs with
        | ':' :: cs =>
          match value (skipBlanks cs) with
          | none => none
          | some (v, cs) =>
            match skipBlanks cs with
            | ',' :: cs => fields? value ((String.ofList name, v) :: done) fuel cs
            | '}' :: cs => some (((String.ofList name, v) :: done).reverse, cs)
            | _ => none
        | _ => none
    | _ => none

/-- A value that starts at the first character; `depth` more arrays and objects may open inside it, and `fuel` bounds
the length of each. -/
def value? (fuel : Nat) : Nat → Reader
  | depth, cs =>
    match cs with
    | 'n' :: cs => (expect? ['u', 'l', 'l'] cs).map (.null, ·)
    | 't' :: cs => (expect? ['r', 'u', 'e'] cs).map (.bool true, ·)
    | 'f' :: cs => (expect? ['a', 'l', 's', 'e'] cs).map (.bool false, ·)
    | '"' :: cs => (stringRest? [] cs).map fun (s, cs) => (.string (String.ofList s), cs)
    | '[' :: cs =>
      match depth with
      | 0 => none
      | depth + 1 =>
        match skipBlanks cs with
        | ']' :: cs => some (.array [], cs)
        | cs => (items? (value? fuel depth) [] fuel cs).map fun (vs, cs) => (.array vs, cs)
    | '{' :: cs =>
      match depth with
      | 0 => none
      | depth + 1 =>
        match skipBlanks cs with
        | '}' :: cs => some (.object [], cs)
        | cs => (fields? (value? fuel depth) [] fuel cs).map fun (fs, cs) => (.object (sortFields fs), cs)
    | cs => (number? cs).map fun (n, cs) => (.number n, cs)

/-- The value that the whole text stands for. -/
def parse? (text : String) : Option Json :=
  let cs := text.toList
  match value? cs.length maxDepth (skipBlanks cs) with
  | some (v, rest) => if (skipBlanks rest).isEmpty then some v else none
  | none => none

end ResponseCache.Json
