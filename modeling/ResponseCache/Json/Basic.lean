import ResponseCache.Json.Number
import Std.Data.TreeMap

/-!
# JSON values

An object is a list of named fields. `canonical` gives every object its fields in increasing order of their names, one
field a name (of repeated names the last), at every depth; values that differ only in the order of fields have one
canonical form.
-/

namespace ResponseCache

inductive Json where
  | null
  | bool (value : Bool)
  | number (value : Json.Number)
  | string (value : String)
  | array (items : List Json)
  | object (fields : List (String × Json))
  deriving Repr, Inhabited

namespace Json

def ofNat (n : Nat) : Json := .number (.ofNat n)

def ofDouble (f : Float) : Json := .number (.double f.toBits)

/-- A text, or null where there is none. -/
def ofString? : Option String → Json
  | none => .null
  | some s => .string s

/-- Fields in increasing order of their names, the last one of each name. -/
def sortFields (fields : List (String × Json)) : List (String × Json) :=
  (fields.foldl (fun m f => m.insert f.1 f.2) (∅ : Std.TreeMap String Json)).toList

mutual

/-- Every object, at every depth, with its fields sorted. -/
def canonical : Json → Json
  | .array items => .array (canonicalItems [] items)
  | .object fields => .object (sortFields (canonicalFields [] fields))
  | .null => .null
  | .bool b => .bool b
  | .number n => .number n
  | .string s => .string s

/-- The items in canonical form, behind those of `done`, which is in reverse. -/
def canonicalItems (done : List Json) : List Json → List Json
  | [] => done.reverse
  | v :: rest => canonicalItems (canonical v :: done) rest

/-- The fields with their values in canonical form, behind those of `done`, which is in reverse. -/
def canonicalFields (done : List (String × Json)) : List (String × Json) → List (String × Json)
  | [] => done.reverse
  | (name, v) :: rest => canonicalFields ((name, canonical v) :: done) rest

end

/-- The value of a field of an object. -/
def field? (name : String) : Json → Option Json
  | .object fields => fields.lookup name
  | _ => none

theorem canonicalItems_eq (items done : List Json) :
    canonicalItems done items = done.reverse ++ items.map canonical := by
  induction items generalizing done with
  | nil => simp [canonicalItems]
  | cons v rest ih => simp [canonicalItems, ih]

theorem canonicalFields_eq (fields done : List (String × Json)) :
    canonicalFields done fields = done.reverse ++ fields.map (fun f => (f.1, canonical f.2)) := by
  induction fields generalizing done with
  | nil => simp [canonicalFields]
  | cons f rest ih => simp [canonicalFields, ih]

/-- **An array** is made canonical item by item. -/
@[simp] theorem canonical_array (items : List Json) : canonical (.array items) = .array (items.map canonical) := by
  simp [canonical, canonicalItems_eq]

/-- **An object** is made canonical field by field, and sorted. -/
@[simp] theorem canonical_object (fields : List (String × Json)) :
    canonical (.object fields) = .object (sortFields (fields.map fun f => (f.1, canonical f.2))) := by
  simp [canonical, canonicalFields_eq]

end Json

end ResponseCache
