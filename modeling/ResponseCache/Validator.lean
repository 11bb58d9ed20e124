import ResponseCache.Json.Printer
import ResponseCache.Lru.Basic

/-!
# Compiled validators

Compiling a schema is costly, so artifacts are kept in a bounded cache. Each distinct schema, fields being compared
without regard to their order, gets an id when it is first seen, and the id is the key of its artifact. An id lives as
long as its artifact: eviction, `clear` and a failed compilation forget it, and no id is given twice.
-/

namespace ResponseCache

abbrev SchemaId := UInt64

structure ValidatorCache (A : Type) where
  /-- The id of a canonical schema text. -/
  ids : Std.TreeMap String SchemaId
  /-- The canonical text of an id. -/
  schemas : Std.TreeMap SchemaId String
  nextId : SchemaId
  compiled : Lru SchemaId A

namespace ValidatorCache

variable {A : Type}

/-- The empty cache with room for `capacity` artifacts, at least one. -/
def create (capacity : Nat) : Except CacheError (ValidatorCache A) :=
  (Lru.create capacity).map fun compiled => ⟨∅, ∅, 0, compiled⟩

/-- The text that identifies a schema. -/
def identity (schema : Json) : String := schema.canonical.render

/-- The id of a schema that has an artifact. -/
def idOf? (c : ValidatorCache A) (schema : Json) : Option SchemaId := c.ids[identity schema]?

/-- The id of a schema; the next one if it has none. -/
def intern (c : ValidatorCache A) (schema : Json) : SchemaId × ValidatorCache A :=
  match c.idOf? schema with
  | some id => (id, c)
  | none =>
    let id := c.nextId
    (id, { c with
      nextId := id + 1, schemas := c.schemas.insert id (identity schema), ids := c.ids.insert (identity schema) id })

/-- Drops an id and its schema. -/
def forget (c : ValidatorCache A) (id : SchemaId) : ValidatorCache A :=
  match c.schemas[id]? with
  | none => c
  | some text => { c with schemas := c.schemas.erase id, ids := c.ids.erase text }

/-- The artifact of a schema, compiled if it is not kept, with whether it was compiled. A compilation that fails keeps
nothing. -/
def getOrCompile (c : ValidatorCache A) (schema : Json) (compile : Json → Except CacheError A) :
    (Except CacheError A × Bool) × ValidatorCache A :=
  let (id, c) := c.intern schema
  match c.compiled.get id with
  | (some artifact, compiled) => ((.ok artifact, false), { c with compiled := compiled })
  | (none, compiled) =>
    let c := { c with compiled := compiled }
    match compile schema with
    | .error e => ((.error e, true), c.forget id)
    | .ok artifact =>
      let (evicted, compiled) := c.compiled.insert id artifact
      let c := { c with compiled := compiled }
      ((.ok artifact, true), match evicted with
        | some (victim, _) => c.forget victim
        | none => c)

/-- How many schemas have an id. -/
def interned (c : ValidatorCache A) : Nat := c.ids.size

def size (c : ValidatorCache A) : Nat := c.compiled.size

def isEmpty (c : ValidatorCache A) : Bool := c.compiled.isEmpty

/-- Drops every artifact and its id. -/
def clear (c : ValidatorCache A) : ValidatorCache A :=
  { c with compiled := c.compiled.clear, ids := ∅, schemas := ∅ }

/-- Changes the capacity; artifacts beyond it go, the least recently used first. -/
def resize (c : ValidatorCache A) (capacity : Nat) : Except CacheError (ValidatorCache A) :=
  (c.compiled.resize capacity).map fun (evicted, compiled) =>
    evicted.foldl (fun c (victim, _) => c.forget victim) { c with compiled := compiled }

def stats (c : ValidatorCache A) : Lru.Stats := c.compiled.snapshot

def resetStats (c : ValidatorCache A) : ValidatorCache A := { c with compiled := c.compiled.resetStats }

end ValidatorCache

/-! ## Required fields -/

/-- The names that a schema lists under `required`; the plainest of validators only asks for these. -/
def requiredNames (schema : Json) : Except CacheError (List String) :=
  match schema.field? "required" with
  | some (.array items) => .ok (items.filterMap fun
    | .string s => some s
    | _ => none)
  | _ => .error (.compile "missing `required`")

end ResponseCache
