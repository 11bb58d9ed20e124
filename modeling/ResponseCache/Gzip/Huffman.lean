import ResponseCache.Gzip.Bits

/-!
# Huffman codes

A code is given by the length of each symbol's word, zero for a symbol that is not used. Words are canonical: shorter
ones come first, and words of one length go by their symbols. Read from left to right, the leaves of the code tree are
then the symbols in that order, so `Tree.ofLengths` grows the tree by placing each one at the first free place.
-/

namespace ResponseCache.Gzip

inductive Tree where
  /-- No word leads here. -/
  | empty
  | leaf (symbol : Nat)
  | node (zero one : Tree)
  deriving Repr, DecidableEq

namespace Tree

/-- The longest word. -/
def maxLength : Nat := 15

/-- The used symbols with their lengths, shorter words first. -/
def ordered (lengths : List Nat) : List (Nat × Nat) :=
  let used := lengths.zipIdx.filter fun p => p.1 != 0
  (List.range (maxLength + 1)).flatMap fun n => used.filter fun p => p.1 == n

/-- The tree below a place at `depth`, with the symbols that found no place in it; words reach `fuel` deeper. -/
def grow (depth : Nat) (symbols : List (Nat × Nat)) (fuel : Nat) : Tree × List (Nat × Nat) :=
  match symbols with
  | [] => (empty, [])
  | (length, symbol) :: rest =>
    if length = depth then (leaf symbol, rest)
    else
      match fuel with
      | 0 => (empty, symbols)
      | fuel + 1 =>
        let (zero, rest) := grow (depth + 1) symbols fuel
        let (one, rest) := grow (depth + 1) rest fuel
        (node zero one, rest)

/-- The tree of a code. One without words has a root too, so that reading from it takes a bit before it fails. -/
def ofLengths (lengths : List Nat) : Tree :=
  match ordered lengths with
  | [] => node empty empty
  | symbols => (grow 0 symbols maxLength).1

/-- How many words of the longest length the words take up, the whole tree being `2 ^ maxLength`. -/
def weight (lengths : List Nat) : Nat :=
  (lengths.map fun n => if n = 0 then 0 else Nat.pow 2 (maxLength - n)).foldl (· + ·) 0

/-- Whether every sequence of bits starts with a word, and with only one. -/
def isComplete (lengths : List Nat) : Bool := weight lengths == Nat.pow 2 maxLength

/-- Whether lengths make a code that may be used: a complete one, a single word of one bit, or none at all. -/
def isUsable (lengths : List Nat) : Bool :=
  isComplete lengths ||
    match lengths.filter (· != 0) with
    | [] => true
    | [length] => length == 1
    | _ => false

/-- Reads one word. -/
def decode : Tree → Bits → Except Fault (Nat × Bits)
  | empty, _ => .error .corrupt
  | leaf symbol, r => .ok (symbol, r)
  | node zero one, r =>
    match r.next? with
    | none => .error .truncated
    | some (b, r) => if b then one.decode r else zero.decode r

end Tree

end ResponseCache.Gzip
