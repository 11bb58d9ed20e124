import ResponseCache.Gzip.Token

/-!
# Writing deflate data

One block in the fixed code, whose tokens write the data.
-/

namespace ResponseCache.Gzip

/-- The bits of a value in its range: the word of the range and the extra bits. -/
def rangeBits (ranges : Ranges) (word : Nat → List Bool) (value : Nat) : List Bool :=
  let (index, least, extra) := ranges.find value
  word index ++ lowFirst (value - least) extra

def Token.bits : Token → List Bool
  | literal b => fixedWord b.toNat
  | copy length distance =>
    rangeBits lengthRanges (fun i => fixedWord (257 + i)) length ++ rangeBits distanceRanges fixedDistanceWord distance

/-- The last block, in the fixed code. -/
def blockBits (tokens : List Token) : List Bool :=
  true :: true :: false :: (tokens.flatMap Token.bits ++ fixedWord endOfBlock)

/-- Deflate data that inflate to the given ones. -/
def deflate (data : ByteArray) : List UInt8 := pack [] (blockBits (tokenize data))

end ResponseCache.Gzip
