/-!
# CRC-32

The checksum of gzip (RFC 1952): the remainder of the message polynomial, bits in reflected order, by `0xEDB88320`.
-/

namespace ResponseCache.Gzip

/-- One division step. -/
def crcShift (c : UInt32) : UInt32 := if c &&& 1 = 1 then (c >>> 1) ^^^ 0xEDB88320 else c >>> 1

/-- The remainder of one byte. -/
def crcByte (b : UInt32) : UInt32 :=
  crcShift (crcShift (crcShift (crcShift (crcShift (crcShift (crcShift (crcShift b)))))))

/-- The remainders of all bytes. -/
def crcTable : Vector UInt32 256 := .ofFn fun i => crcByte i.val.toUInt32

/-- The running remainder after one more byte. -/
def crcUpdate (c : UInt32) (b : UInt8) : UInt32 := crcTable.get (c.toUInt8 ^^^ b).toFin ^^^ (c >>> 8)

/-- The checksum of a list of bytes. -/
def crc32 (bytes : List UInt8) : UInt32 := bytes.foldl crcUpdate 0xFFFFFFFF ^^^ 0xFFFFFFFF

end ResponseCache.Gzip
