import ResponseCache.Text.Utf8

/-!
# Percent-encoded text

A `%` with two hexadecimal digits stands for a byte; a `%` without them stands for itself. `formPairs` reads a query:
pieces between `&`, empty ones skipped, each split at its first `=`, with `+` for a blank.
-/

namespace ResponseCache.Text

def hexDigit? (b : UInt8) : Option UInt8 :=
  if 0x30 ≤ b ∧ b ≤ 0x39 then some (b - 0x30)
  else if 0x41 ≤ b ∧ b ≤ 0x46 then some (b - 0x37)
  else if 0x61 ≤ b ∧ b ≤ 0x66 then some (b - 0x57)
  else none

/-- The bytes that percent-encoded bytes stand for, behind those of `done`, which is in reverse. -/
def percentBytes (done : List UInt8) : List UInt8 → List UInt8
  | [] => done.reverse
  | 0x25 :: a :: b :: rest =>
    match hexDigit? a, hexDigit? b with
    | some x, some y => percentBytes ((x * 16 + y) :: done) rest
    | _, _ => percentBytes (0x25 :: done) (a :: b :: rest)
  | c :: rest => percentBytes (c :: done) rest

/-- The bytes that a percent-encoded text stands for. -/
def percentDecode (s : String) : List UInt8 := percentBytes [] (encode s).toList

/-- The text that a percent-encoded text stands for, if its bytes are well-formed. -/
def percentDecode? (s : String) : Option String := decode? ⟨(percentDecode s).toArray⟩

/-- The pieces between the separators. -/
def splitBytes (separator : UInt8) (done : List (List UInt8)) (piece : List UInt8) : List UInt8 → List (List UInt8)
  | [] => (piece.reverse :: done).reverse
  | b :: rest =>
    if b = separator then splitBytes separator (piece.reverse :: done) [] rest
    else splitBytes separator done (b :: piece) rest

/-- A name or value of a form: `+` is a blank, bytes that are no text are replaced. -/
def formText (bytes : List UInt8) : String :=
  decodeLossy (percentBytes [] (bytes.map fun b => if b = 0x2B then 0x20 else b))

/-- The pairs of a query, in order. -/
def formPairs (query : String) : List (String × String) :=
  ((splitBytes 0x26 [] [] (encode query).toList).filter fun piece => !piece.isEmpty).map fun piece =>
    (formText (piece.takeWhile (· != 0x3D)), formText ((piece.dropWhile (· != 0x3D)).drop 1))

end ResponseCache.Text
