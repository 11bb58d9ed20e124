/-!
# UTF-8

`decodeLossy` reads any bytes as text: each longest start of a well-formed sequence that goes wrong, and each byte that
can start none, becomes one U+FFFD. `decode?` accepts only well-formed bytes.
-/

namespace ResponseCache.Text

/-- The text of well-formed bytes. -/
def decode? (bytes : ByteArray) : Option String := String.fromUTF8? bytes

def encode (s : String) : ByteArray := s.toUTF8

/-- The character that stands for bytes that are no text. -/
def replacement : Char := Char.ofNat 0xFFFD

/-- Which bytes may follow the lead byte of a sequence of three or four. -/
def secondRange (lead : UInt8) : UInt8 × UInt8 :=
  if lead = 0xE0 then (0xA0, 0xBF)
  else if lead = 0xED then (0x80, 0x9F)
  else if lead = 0xF0 then (0x90, 0xBF)
  else if lead = 0xF4 then (0x80, 0x8F)
  else (0x80, 0xBF)

/-- How many bytes follow the lead byte of a sequence: `none` for a byte that leads none. -/
def followers? (lead : UInt8) : Option Nat :=
  if lead < 0x80 then some 0
  else if 0xC2 ≤ lead ∧ lead ≤ 0xDF then some 1
  else if 0xE0 ≤ lead ∧ lead ≤ 0xEF then some 2
  else if 0xF0 ≤ lead ∧ lead ≤ 0xF4 then some 3
  else none

/-- The bits of the code point that the lead byte holds. -/
def leadBits (lead : UInt8) : Nat → Nat
  | 0 => lead.toNat
  | 1 => lead.toNat % 32
  | 2 => lead.toNat % 16
  | _ => lead.toNat % 8

/-- The rest of a sequence: `missing` bytes, the next one within `low … high`; `code` is what was read of the code
point. A byte that does not fit ends the sequence and is left for the next one. -/
def decodeFrom (done : List Char) (missing code : Nat) (low high : UInt8) : List UInt8 → List Char
  | [] => (if missing = 0 then done else replacement :: done).reverse
  | b :: bs =>
    if missing ≠ 0 ∧ low ≤ b ∧ b ≤ high then
      let code := code * 64 + b.toNat % 64
      if missing = 1 then decodeFrom (Char.ofNat code :: done) 0 0 0x80 0xBF bs
      else decodeFrom done (missing - 1) code 0x80 0xBF bs
    else
      let done := if missing = 0 then done else replacement :: done
      match followers? b with
      | none => decodeFrom (replacement :: done) 0 0 0x80 0xBF bs
      | some 0 => decodeFrom (Char.ofNat b.toNat :: done) 0 0 0x80 0xBF bs
      | some n =>
        let (low, high) := if n = 1 then (0x80, 0xBF) else secondRange b
        decodeFrom done n (leadBits b n) low high bs

/-- The text of any bytes. -/
def decodeLossy (bytes : List UInt8) : String := String.ofList (decodeFrom [] 0 0 0x80 0xBF bytes)

end ResponseCache.Text
