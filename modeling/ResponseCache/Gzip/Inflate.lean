import ResponseCache.Gzip.Token

/-!
# Reading deflate data

`inflate` reads the blocks of RFC 1951 up to the last one and gives back what they write, with the bytes behind them.
Where the data end too early it says so; everything else that is wrong, from the type of a block to a word that no
symbol has, makes them corrupt. A copy may reach back beyond the start: there are zeros.
-/

namespace ResponseCache.Gzip

/-- The result of a reader: a value and what is left. -/
abbrev Read (α : Type) := Except Fault (α × Bits)

/-- Reads a value of one of the ranges, its symbol being known. -/
def readRange (ranges : Ranges) (symbol : Nat) (r : Bits) : Read Nat :=
  match ranges[symbol]? with
  | none => .error .corrupt
  | some (least, extra) =>
    match r.read extra with
    | .error e => .error e
    | .ok (offset, r) => .ok (least + offset, r)

/-- Reads a token: `none` is the end of the block. -/
def readToken (literals distances : Tree) (r : Bits) : Read (Option Token) :=
  match literals.decode r with
  | .error e => .error e
  | .ok (symbol, r) =>
    if symbol < 256 then .ok (some (.literal symbol.toUInt8), r)
    else if symbol = endOfBlock then .ok (none, r)
    else
      match readRange lengthRanges (symbol - 257) r with
      | .error e => .error e
      | .ok (length, r) =>
        match distances.decode r with
        | .error e => .error e
        | .ok (symbol, r) =>
          match readRange distanceRanges symbol r with
          | .error e => .error e
          | .ok (distance, r) => .ok (some (.copy length distance), r)

/-- Reads the tokens of a block, at most `fuel` of them, and writes them behind `out`. -/
def readTokens (literals distances : Tree) (out : Array UInt8) (r : Bits) : Nat → Read (Array UInt8)
  | 0 => .error .truncated
  | fuel + 1 =>
    match readToken literals distances r with
    | .error e => .error e
    | .ok (none, r) => .ok (out, r)
    | .ok (some token, r) => readTokens literals distances (token.apply out) r fuel

/-- Reads a stored block: its length twice, the second time complemented, and its bytes. -/
def readStored (out : Array UInt8) (r : Bits) : Read (Array UInt8) :=
  match r.align.bytes with
  | a :: b :: c :: d :: bytes =>
    let length := a.toNat + 256 * b.toNat
    if c = ~~~a ∧ d = ~~~b then
      let stored := bytes.take length
      if stored.length = length then .ok (out ++ stored.toArray, .ofBytes (bytes.drop length))
      else .error .truncated
    else .error .corrupt
  | _ => .error .truncated

/-! ## Dynamic codes -/

/-- The order in which the lengths of the length code are written. -/
def lengthCodeOrder : List Nat := [16, 17, 18, 0, 8, 7, 9, 6, 10, 5, 11, 4, 12, 3, 13, 2, 14, 1, 15]

/-- Reads `count` numbers of three bits, behind those of `done`, which is in reverse. -/
def readTriples (done : List Nat) (r : Bits) : Nat → Read (List Nat)
  | 0 => .ok (done.reverse, r)
  | count + 1 =>
    match r.read 3 with
    | .error e => .error e
    | .ok (n, r) => readTriples (n :: done) r count

/-- What a symbol of the length code stands for: a length and how often it comes. -/
def readRun (previous : Option Nat) (symbol : Nat) (r : Bits) : Read (Nat × Nat) :=
  let run (length least width : Nat) : Read (Nat × Nat) :=
    match r.read width with
    | .error e => .error e
    | .ok (n, r) => .ok ((length, least + n), r)
  if symbol < 16 then .ok ((symbol, 1), r)
  else if symbol = 16 then
    match previous with
    | none => .error .corrupt
    | some length => run length 3 2
  else if symbol = 17 then run 0 3 3
  else run 0 11 7

/-- Reads runs until there are `total` lengths; `done` holds the ones read, in reverse, and `missing` counts the others.
Each run has at least one, so `fuel` need not exceed `total`. -/
def readLengths (tree : Tree) (done : List Nat) (missing : Nat) (r : Bits) : Nat → Read (List Nat)
  | 0 => if missing = 0 then .ok (done.reverse, r) else .error .corrupt
  | fuel + 1 =>
    if missing = 0 then .ok (done.reverse, r)
    else
      match tree.decode r with
      | .error e => .error e
      | .ok (symbol, r) =>
        match readRun done.head? symbol r with
        | .error e => .error e
        | .ok ((length, times), r) =>
          if times ≤ missing then readLengths tree (List.replicate times length ++ done) (missing - times) r fuel
          else .error .corrupt

/-- The lengths of the length code, in the order of its symbols. -/
def lengthCode (triples : List Nat) : List Nat :=
  (List.range 19).map fun symbol => ((lengthCodeOrder.zip triples).lookup symbol).getD 0

/-- Reads the two codes of a block. -/
def readCodes (r : Bits) : Except Fault ((Tree × Tree) × Bits) := do
  let (literals, r) ← r.read 5
  let (distances, r) ← r.read 5
  let (triples, r) ← r.read 4
  let literals := literals + 257
  let distances := distances + 1
  if 286 < literals ∨ 30 < distances then throw .corrupt
  let (triples, r) ← readTriples [] r (triples + 4)
  let code := lengthCode triples
  if !Tree.isComplete code then throw .corrupt
  let total := literals + distances
  let (lengths, r) ← readLengths (.ofLengths code) [] total r total
  let (literalLengths, distanceLengths) := lengths.splitAt literals
  if !Tree.isUsable literalLengths || !Tree.isUsable distanceLengths then throw .corrupt
  return ((.ofLengths literalLengths, .ofLengths distanceLengths), r)

/-! ## Blocks -/

/-- Reads the contents of a block of the given type. -/
def readBlock (kind : Nat) (out : Array UInt8) (r : Bits) (fuel : Nat) : Read (Array UInt8) :=
  match kind with
  | 0 => readStored out r
  | 1 => readTokens fixedTree fixedDistanceTree out r fuel
  | 2 =>
    match readCodes r with
    | .error e => .error e
    | .ok ((literals, distances), r) => readTokens literals distances out r fuel
  | _ => .error .corrupt

/-- Reads blocks up to the last one. A block and a token have at least one bit each, so `fuel`, which bounds the number
of either, need not exceed the number of bits. -/
def readBlocks (limit : Nat) (out : Array UInt8) (r : Bits) : Nat → Read (Array UInt8)
  | 0 => .error .truncated
  | fuel + 1 =>
    match r.read 1 with
    | .error e => .error e
    | .ok (last, r) =>
      match r.read 2 with
      | .error e => .error e
      | .ok (kind, r) =>
        match readBlock kind out r limit with
        | .error e => .error e
        | .ok (out, r) => if last = 1 then .ok (out, r) else readBlocks limit out r fuel

/-- What deflate data write, and the bytes behind them. -/
def inflate (bytes : List UInt8) : Except Fault (Array UInt8 × List UInt8) :=
  let bits := 8 * bytes.length
  match readBlocks bits #[] (.ofBytes bytes) bits with
  | .error e => .error e
  | .ok (out, r) => .ok (out, r.bytes)

end ResponseCache.Gzip
