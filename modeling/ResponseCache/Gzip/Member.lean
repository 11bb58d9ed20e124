import ResponseCache.Gzip.Crc32
import ResponseCache.Gzip.Deflate
import ResponseCache.Gzip.Inflate

/-!
# Gzip members

A member (RFC 1952) is a header, deflate data, and a trailer with the checksum and the length of what they inflate to.
`compress` writes one; `decompress` reads the first one and ignores whatever follows it.
-/

namespace ResponseCache.Gzip

/-- Why bytes are no gzip member. -/
inductive Error where
  | header
  | fieldTooLong
  | unexpectedEnd
  | data (fault : Fault)
  | checksum
  deriving Repr, DecidableEq

def Error.message : Error → String
  | header => "invalid gzip header"
  | fieldTooLong => "gzip header field too long"
  | unexpectedEnd => "unexpected end of file"
  | data .truncated => "incomplete deflate stream"
  | data .corrupt => "corrupt deflate stream"
  | checksum => "corrupt gzip stream does not have a matching checksum"

/-- A word, least significant byte first. -/
def wordBytes (w : UInt32) : List UInt8 :=
  [w.toUInt8, (w >>> 8).toUInt8, (w >>> 16).toUInt8, (w >>> 24).toUInt8]

/-- Magic, method deflate, no flags, no time, fastest compression, unknown system. -/
def header : List UInt8 := [0x1F, 0x8B, 8, 0, 0, 0, 0, 0, 4, 0xFF]

/-- The checksum and the length modulo `2 ^ 32`. -/
def trailer (content : List UInt8) : List UInt8 := wordBytes (crc32 content) ++ wordBytes content.length.toUInt32

/-- A member that holds the given content. -/
def compress (content : ByteArray) : ByteArray :=
  ⟨(header ++ (deflate content ++ trailer content.toList)).toArray⟩

/-! ## Reading -/

/-- The longest name or comment that is read. -/
def maxField : Nat := 65535

/-- The bytes up to a NUL, which is left out, and what follows it. -/
def untilNul (done : List UInt8) (room : Nat) : List UInt8 → Except Error (List UInt8 × List UInt8)
  | [] => .error .unexpectedEnd
  | b :: rest =>
    if b = 0 then .ok (done.reverse, rest)
    else
      match room with
      | 0 => .error .fieldTooLong
      | room + 1 => untilNul (b :: done) room rest

/-- The first `n` bytes and what follows them. -/
def takeBytes (n : Nat) (bytes : List UInt8) : Except Error (List UInt8 × List UInt8) :=
  let taken := bytes.take n
  if taken.length = n then .ok (taken, bytes.drop n) else .error .unexpectedEnd

def littleEndian (bytes : List UInt8) : Nat := bytes.foldr (fun b n => b.toNat + 256 * n) 0

/-- The extra field, length included. -/
def readExtra (bytes : List UInt8) : Except Error (List UInt8 × List UInt8) := do
  let (length, rest) ← takeBytes 2 bytes
  let (extra, rest) ← takeBytes (littleEndian length) rest
  return (length ++ extra, rest)

/-- A text field with its NUL. -/
def readText (bytes : List UInt8) : Except Error (List UInt8 × List UInt8) := do
  let (text, rest) ← untilNul [] maxField bytes
  return (text ++ [0], rest)

/-- An optional field of the header: read if its bit is set. -/
def readIf (flags bit : UInt8) (read : List UInt8 → Except Error (List UInt8 × List UInt8)) (bytes : List UInt8) :
    Except Error (List UInt8 × List UInt8) :=
  if flags &&& bit ≠ 0 then read bytes else .ok ([], bytes)

/-- The flags without a meaning, which have to be zero. -/
def reservedFlags : UInt8 := 0xE0

/-- Skips the header; the checksum of the header is verified if it has one. -/
def readHeader (bytes : List UInt8) : Except Error (List UInt8) := do
  let (fixed, rest) ← takeBytes 10 bytes
  let flags := fixed.getD 3 0
  if fixed.take 3 ≠ [0x1F, 0x8B, 8] ∨ flags &&& reservedFlags ≠ 0 then throw .header
  let (extra, rest) ← readIf flags 4 readExtra rest
  let (name, rest) ← readIf flags 8 readText rest
  let (comment, rest) ← readIf flags 16 readText rest
  let (sum, rest) ← readIf flags 2 (takeBytes 2) rest
  if flags &&& 2 ≠ 0 ∧ littleEndian sum ≠ (crc32 (fixed ++ extra ++ name ++ comment)).toNat % 65536 then
    throw .checksum
  return rest

/-- The content of the first member. -/
def decompress (member : ByteArray) : Except Error ByteArray := do
  let rest ← readHeader member.toList
  let (out, rest) ← (inflate rest).mapError .data
  let (sums, _) ← takeBytes 8 rest
  if sums ≠ trailer out.toList then throw .checksum
  return ⟨out⟩

end ResponseCache.Gzip
