import ResponseCache.Gzip.Huffman

/-!
# The alphabets of deflate

Symbols up to 255 are literal bytes, 256 ends a block, and those from 257 on are lengths of copies; distances have an
alphabet of their own. A length or distance symbol names a range by its least value, and extra bits say where in it.
The fixed code is that of RFC 1951, 3.2.6.
-/

namespace ResponseCache.Gzip

/-- The least value of each range and its number of extra bits. -/
abbrev Ranges := List (Nat × Nat)

/-- The ranges of length symbols, from 257 on. -/
def lengthRanges : Ranges :=
  [(3, 0), (4, 0), (5, 0), (6, 0), (7, 0), (8, 0), (9, 0), (10, 0), (11, 1), (13, 1), (15, 1), (17, 1), (19, 2),
    (23, 2), (27, 2), (31, 2), (35, 3), (43, 3), (51, 3), (59, 3), (67, 4), (83, 4), (99, 4), (115, 4), (131, 5),
    (163, 5), (195, 5), (227, 5), (258, 0)]

/-- The ranges of distance symbols. -/
def distanceRanges : Ranges :=
  [(1, 0), (2, 0), (3, 0), (4, 0), (5, 1), (7, 1), (9, 2), (13, 2), (17, 3), (25, 3), (33, 4), (49, 4), (65, 5),
    (97, 5), (129, 6), (193, 6), (257, 7), (385, 7), (513, 8), (769, 8), (1025, 9), (1537, 9), (2049, 10),
    (3073, 10), (4097, 11), (6145, 11), (8193, 12), (12289, 12), (16385, 13), (24577, 13)]

/-- The last range that starts at or below a value: its index, its least value and its extra bits. -/
def Ranges.find (ranges : Ranges) (value : Nat) : Nat × Nat × Nat :=
  let below := ranges.takeWhile fun r => r.1 ≤ value
  let last := below.getLastD (0, 0)
  (below.length - 1, last.1, last.2)

def maxCopy : Nat := 258

def maxDistance : Nat := 32768

def endOfBlock : Nat := 256

/-- The lengths of the fixed literal and length code. -/
def fixedLengths : List Nat :=
  List.replicate 144 8 ++ List.replicate 112 9 ++ List.replicate 24 7 ++ List.replicate 8 8

/-- The lengths of the fixed distance code. -/
def fixedDistanceLengths : List Nat := List.replicate 32 5

def fixedTree : Tree := .ofLengths fixedLengths

def fixedDistanceTree : Tree := .ofLengths fixedDistanceLengths

/-- The word of a literal or length symbol in the fixed code. -/
def fixedWord (symbol : Nat) : List Bool :=
  if symbol < 144 then highFirst (0x30 + symbol) 8
  else if symbol < 256 then highFirst (0x190 + (symbol - 144)) 9
  else if symbol < 280 then highFirst (symbol - 256) 7
  else highFirst (0xC0 + (symbol - 280)) 8

/-- The word of a distance symbol in the fixed code. -/
def fixedDistanceWord (symbol : Nat) : List Bool := highFirst symbol 5

end ResponseCache.Gzip
