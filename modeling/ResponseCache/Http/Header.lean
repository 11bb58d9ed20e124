import ResponseCache.Text.Utf8

/-!
# Header fields

A message has a list of header fields, named in lower case. A name may occur more than once.
-/

namespace ResponseCache.Http

structure Headers where
  fields : List (String × ByteArray)
  deriving Inhabited

namespace Headers

def empty : Headers := ⟨[]⟩

/-- Fields under names in any case. -/
def ofList (fields : List (String × ByteArray)) : Headers :=
  ⟨fields.map fun (name, value) => (name.toLower, value)⟩

/-- The first value of a name. -/
def get? (h : Headers) (name : String) : Option ByteArray := h.fields.lookup name

/-- All values of a name, in order. -/
def values (h : Headers) (name : String) : List ByteArray := (h.fields.filter fun f => f.1 == name).map (·.2)

/-- Puts one field in the place of all of its name. -/
def insert (h : Headers) (name : String) (value : ByteArray) : Headers :=
  ⟨h.fields.filter (fun f => f.1 != name) ++ [(name, value)]⟩

theorem values_insert_self (h : Headers) (name : String) (value : ByteArray) :
    (h.insert name value).values name = [value] := by
  have : (h.fields.filter fun f => f.1 != name).filter (fun f => f.1 == name) = [] := by
    simp [List.filter_eq_nil_iff]
  simp [insert, values, this]

theorem values_insert_of_ne (h : Headers) {name other : String} (value : ByteArray) (ne : other ≠ name) :
    (h.insert name value).values other = h.values other := by
  simp only [insert, values, List.filter_append, List.filter_filter]
  congr 1
  have : [(name, value)].filter (fun f => f.1 == other) = [] := by simp [Ne.symm ne]
  rw [this, List.append_nil]
  refine List.filter_congr fun f _ => ?_
  by_cases h : f.1 = other <;> simp_all

end Headers

/-- A value that can be read as text: blanks, tabs and visible ASCII characters. -/
def isVisible (value : ByteArray) : Bool := value.toList.all fun b => b = 9 || (32 ≤ b && b < 127)

/-- The text of a visible value. -/
def visibleText? (value : ByteArray) : Option String := if isVisible value then Text.decode? value else none

/-- The value that a text can be sent as: no control character other than the tab may be in it. -/
def legalValue? (text : String) : Option ByteArray :=
  if (Text.encode text).toList.all fun b => b = 9 || (32 ≤ b && b ≠ 127) then some (Text.encode text) else none

end ResponseCache.Http
