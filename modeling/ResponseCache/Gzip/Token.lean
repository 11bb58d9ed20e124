import ResponseCache.Gzip.Alphabet
import Std.Data.HashMap

/-!
# Literals and copies

A deflate stream is a list of tokens: a literal byte, or a copy of bytes that were just written. `Token.apply` says what
a token writes. `tokenize` finds copies greedily: it remembers where each triple of bytes was last seen at the start of
a token, and copies from there as far as the bytes agree. Whether they agree is checked byte by byte, so what the memory
holds cannot make a token wrong.
-/

namespace ResponseCache.Gzip

inductive Token where
  | literal (byte : UInt8)
  | copy (length distance : Nat)
  deriving Repr, DecidableEq

/-- The byte `distance` places back; there are zeros before the start. -/
def byteBack (out : Array UInt8) (distance : Nat) : UInt8 :=
  if distance ≤ out.size then out.getD (out.size - distance) 0 else 0

/-- Writes `length` bytes, each the one `distance` places before it. -/
def copyBytes (out : Array UInt8) (distance : Nat) : Nat → Array UInt8
  | 0 => out
  | length + 1 => copyBytes (out.push (byteBack out distance)) distance length

/-- Writes a token behind what is written. -/
def Token.apply (out : Array UInt8) : Token → Array UInt8
  | literal b => out.push b
  | copy length distance => copyBytes out distance length

/-- How many bytes from `i + k` and from `j + k` on agree, `k` being known; at most `fuel` more. -/
def agreement (data : ByteArray) (i j k : Nat) : Nat → Nat
  | 0 => k
  | fuel + 1 =>
    match data[i + k]?, data[j + k]? with
    | some a, some b => if a = b then agreement data i j (k + 1) fuel else k
    | _, _ => k

/-- The three bytes at a place, as a number. -/
def triple? (data : ByteArray) (i : Nat) : Option Nat :=
  match data[i]?, data[i + 1]?, data[i + 2]? with
  | some a, some b, some c => some ((a.toNat * 256 + b.toNat) * 256 + c.toNat)
  | _, _, _ => none

/-- The copy that place `i` can be written by, if the place `j` remembered for it gives one. -/
def copyAt? (data : ByteArray) (i : Nat) (j : Option Nat) : Option (Nat × Nat) :=
  match j with
  | none => none
  | some j =>
    if j < i ∧ i - j ≤ maxDistance then
      let length := agreement data j i 0 maxCopy
      if 3 ≤ length then some (length, i - j) else none
    else none

/-- The tokens from place `i` on, behind those of `done`, which is in reverse; at most `fuel` of them. -/
def tokenizeFrom (data : ByteArray) (seen : Std.HashMap Nat Nat) (done : List Token) (i : Nat) : Nat → List Token
  | 0 => done.reverse
  | fuel + 1 =>
    match data[i]? with
    | none => done.reverse
    | some b =>
      let key := triple? data i
      let found := key.bind fun key => seen[key]?
      let seen := match key with
        | some key => seen.insert key i
        | none => seen
      match copyAt? data i found with
      | some (length, distance) => tokenizeFrom data seen (.copy length distance :: done) (i + length) fuel
      | none => tokenizeFrom data seen (.literal b :: done) (i + 1) fuel

/-- Tokens that write the data. -/
def tokenize (data : ByteArray) : List Token := tokenizeFrom data ∅ [] 0 data.size

end ResponseCache.Gzip
