/-!
# Bits of a byte string

Deflate reads the bits of each byte from the least significant one on. `Bits` is what is left to read: the bits of the
byte that was opened, and the bytes behind it. `toBits` is the plain list of bits that it stands for.
-/

namespace ResponseCache.Gzip

/-- The bits of a number of `width` bits, least significant first. -/
def lowFirst (value : Nat) : Nat → List Bool
  | 0 => []
  | width + 1 => (value % 2 == 1) :: lowFirst (value / 2) width

/-- The bits of a number of `width` bits, most significant first. -/
def highFirst (value width : Nat) : List Bool := (lowFirst value width).reverse

/-- The number whose bits these are, least significant first. -/
def ofLowFirst : List Bool → Nat
  | [] => 0
  | b :: bs => b.toNat + 2 * ofLowFirst bs

def byteBits (b : UInt8) : List Bool := lowFirst b.toNat 8

/-- The bytes of a list of bits, the last one filled up with zeros, behind those of `done`, which is in reverse. -/
def pack (done : List UInt8) : List Bool → List UInt8
  | a :: b :: c :: d :: e :: f :: g :: h :: rest =>
    pack ((ofLowFirst [a, b, c, d, e, f, g, h]).toUInt8 :: done) rest
  | [] => done.reverse
  | bs => ((ofLowFirst bs).toUInt8 :: done).reverse

/-- Bits left to read. -/
structure Bits where
  /-- The unread bits of the byte that was opened. -/
  opened : List Bool
  bytes : List UInt8

/-- Why a bit stream could not be read. -/
inductive Fault where
  /-- The data ended too early. -/
  | truncated
  /-- The data break the format. -/
  | corrupt
  deriving Repr, DecidableEq

namespace Bits

/-- The bits of whole bytes. -/
def ofBytes (bytes : List UInt8) : Bits := ⟨[], bytes⟩

def toBits (r : Bits) : List Bool := r.opened ++ r.bytes.flatMap byteBits

def next? (r : Bits) : Option (Bool × Bits) :=
  match r.opened, r.bytes with
  | b :: opened, bytes => some (b, ⟨opened, bytes⟩)
  | [], x :: bytes =>
    match byteBits x with
    | b :: opened => some (b, ⟨opened, bytes⟩)
    | [] => none
  | [], [] => none

/-- Reads a number of `width` bits, least significant first. -/
def read (r : Bits) : Nat → Except Fault (Nat × Bits)
  | 0 => .ok (0, r)
  | width + 1 =>
    match r.next? with
    | none => .error .truncated
    | some (b, r) =>
      match r.read width with
      | .error e => .error e
      | .ok (value, r) => .ok (b.toNat + 2 * value, r)

/-- Goes on at the next whole byte. -/
def align (r : Bits) : Bits := ⟨[], r.bytes⟩

/-- **The view** of one step: nothing is left, or the next bit comes first. -/
theorem toBits_of_next? {r : Bits} : r.toBits = match r.next? with
    | none => []
    | some (b, r') => b :: r'.toBits := by
  obtain ⟨opened, bytes⟩ := r
  cases opened with
  | cons b opened => simp [next?, toBits]
  | nil =>
    cases bytes with
    | nil => simp [next?, toBits]
    | cons x bytes => simp [next?, toBits, byteBits, lowFirst]

end Bits

end ResponseCache.Gzip
