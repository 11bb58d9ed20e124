import Mathlib.Data.List.Nodup
import Mathlib.Data.Prod.Basic
import ResponseCache.Proofs.Lru.Refinement
import ResponseCache.Validator

/-!
# Ids live as long as their artifacts

A validator cache keeps four things that move together: the ids of schema texts, the texts of ids, the next id and the
artifacts under their ids. `Interns` ties them to an account of the artifacts; ids that have a text and no artifact,
as in the middle of a request, are `pending`. A request goes one of three ways: the artifact is there
(`Interns.kept`), it cannot be compiled (`Interns.failed`), or it is compiled and may drive out another one
(`Interns.compiled`). So every call keeps the tie (`Interns.after`).

Ids are given in increasing order (`History.ids_given`), and what has an id was given it (`given_of_after`). Together
that is `ids_match_artifacts`: ids and artifacts match after every history, and an id that was dropped never comes back.
-/

namespace ResponseCache

open Std (TreeMap TransOrd LawfulEqOrd)

/-! ## The keys of an account -/

namespace Lru.Recency

variable {K V : Type} [DecidableEq K] {r : Recency K V} {k k' : K}

/-- The keys from the least to the most recently touched one. -/
def keys (r : Recency K V) : List K := r.entries.map (·.1)

theorem find?_eq_none_iff : r.find? k = none ↔ k ∉ r.keys := by
  rw [find?, List.lookup_eq_none_iff, keys, List.mem_map]
  constructor
  · rintro none ⟨p, mem, rfl⟩
    simpa using none p mem
  · intro absent p mem
    exact bne_iff_ne.2 fun eq => absent ⟨p, mem, eq.symm⟩

theorem find?_isSome_iff : (r.find? k).isSome = true ↔ k ∈ r.keys := by
  rw [Option.isSome_iff_ne_none, ne_eq, find?_eq_none_iff, not_not]

theorem mem_keys_touch (v : V) : k' ∈ (r.touch k v).keys ↔ k' = k ∨ k' ∈ r.keys := by
  by_cases same : k' = k <;> simp [keys, touch, erase, same]

end Lru.Recency

namespace ValidatorCache

variable {A : Type}

/-! ## Calls -/

inductive Call (A : Type) where
  | getOrCompile (schema : Json) (compile : Json → Except CacheError A)
  | clear
  | resize (capacity : Nat)
  | resetStats

/-- The cache after a call. A capacity that is refused leaves it as it was. -/
def after (c : ValidatorCache A) : Call A → ValidatorCache A
  | .getOrCompile schema compile => (c.getOrCompile schema compile).2
  | .clear => c.clear
  | .resize capacity =>
    match c.resize capacity with
    | .ok c => c
    | .error _ => c
  | .resetStats => c.resetStats

/-- A call, and the cache that it was made to. -/
structure Event (A : Type) where
  cache : ValidatorCache A
  call : Call A

/-- The calls that led from an empty cache with room for `capacity` artifacts to the cache at hand, the latest first. -/
inductive History (capacity : Nat) : List (Event A) → ValidatorCache A → Prop
  | create {c : ValidatorCache A} : ValidatorCache.create capacity = .ok c → History capacity [] c
  | call {h : List (Event A)} {c : ValidatorCache A} (call : Call A) : History capacity h c →
      History capacity (⟨c, call⟩ :: h) (c.after call)

/-- The id that a call gives out, and the text of the schema that it is given to: a schema that has none. -/
def Event.given? : Event A → Option (SchemaId × String)
  | ⟨c, .getOrCompile schema _⟩ =>
    match c.idOf? schema with
    | some _ => none
    | none => some ((c.intern schema).1, identity schema)
  | _ => none

/-- All ids that were given, the latest first. -/
def given (h : List (Event A)) : List (SchemaId × String) := h.filterMap Event.given?

/-- The capacity that was granted last. -/
def room (capacity : Nat) : List (Event A) → Nat
  | [] => capacity
  | ⟨_, .resize n⟩ :: h => if n = 0 then room capacity h else n
  | _ :: h => room capacity h

/-! ## Parts of a request -/

section Parts

variable (c : ValidatorCache A) (schema : Json)

theorem intern_of_known {id : SchemaId} (known : c.idOf? schema = some id) : c.intern schema = (id, c) := by
  rw [intern, known]

theorem intern_of_fresh (fresh : c.idOf? schema = none) : c.intern schema = (c.nextId, (c.intern schema).2) := by
  rw [intern, fresh]

@[simp] theorem compiled_intern : (c.intern schema).2.compiled = c.compiled := by
  unfold intern
  split <;> rfl

/-- Puts an artifact in. The id of the one that makes room for it is forgotten. -/
def store (id : SchemaId) (artifact : A) : ValidatorCache A :=
  let inserted := { c with compiled := (c.compiled.insert id artifact).2 }
  match (c.compiled.insert id artifact).1 with
  | some (victim, _) => inserted.forget victim
  | none => inserted

end Parts

/-! ## The tie of ids, texts and artifacts -/

/-- A cache with the account of its artifacts: ids and texts are inverse to each other, and what has a text has an
artifact, or is pending. -/
structure Interns (pending : List SchemaId) (c : ValidatorCache A) (r : Lru.Recency SchemaId A) : Prop where
  ties : c.compiled.Represents r
  sound : r.Sound
  inverse : ∀ (text : String) (id : SchemaId), c.ids[text]? = some id ↔ c.schemas[id]? = some text
  held : ∀ id : SchemaId, (∃ text, c.schemas[id]? = some text) ↔ id ∈ r.keys ∨ id ∈ pending
  below : ∀ (id : SchemaId) (text : String), c.schemas[id]? = some text → id < c.nextId

namespace Interns

variable {pending : List SchemaId} {c : ValidatorCache A} {r : Lru.Recency SchemaId A} {schema : Json}

/-- Other artifacts, with the ids that this leaves pending. -/
theorem recompiled (interns : Interns pending c r) {compiled : Lru SchemaId A} {r' : Lru.Recency SchemaId A}
    {pending' : List SchemaId} (ties : compiled.Represents r') (sound : r'.Sound)
    (same : ∀ id, (id ∈ r'.keys ∨ id ∈ pending') ↔ (id ∈ r.keys ∨ id ∈ pending)) :
    Interns pending' { c with compiled := compiled } r' where
  ties := ties
  sound := sound
  inverse := interns.inverse
  held id := (interns.held id).trans (same id).symm
  below := interns.below

/-- **A pending id** is forgotten with its text. -/
theorem forget {id : SchemaId} (interns : Interns (id :: pending) c r) (gone : id ∉ r.keys) (once : id ∉ pending) :
    Interns pending (c.forget id) r := by
  obtain ⟨text, here⟩ := (interns.held id).2 (.inr List.mem_cons_self)
  have there := (interns.inverse text id).2 here
  rw [ValidatorCache.forget, here]
  refine ⟨interns.ties, interns.sound, ?_, ?_, ?_⟩
  · intro text' id'
    simp only [TreeMap.getElem?_erase, Std.compare_eq_iff_eq]
    by_cases same : id = id'
    · subst same
      have only : text ≠ text' → c.ids[text']? ≠ some id := fun other back =>
        other (Option.some.inj (here.symm.trans ((interns.inverse text' id).1 back)))
      by_cases eq : text = text' <;> simp [eq, only]
    · have only : c.schemas[id']? ≠ some text := fun back =>
        same (Option.some.inj (there.symm.trans ((interns.inverse text id').2 back)))
      by_cases eq : text = text'
      · subst eq
        simp [same, only]
      · simp [same, eq, interns.inverse]
  · intro id'
    have held := interns.held id'
    simp only [TreeMap.getElem?_erase, Std.compare_eq_iff_eq]
    by_cases same : id = id'
    · subst same
      simp [gone, once]
    · simpa [same, Ne.symm same] using held
  · intro id' text' back
    simp only [TreeMap.getElem?_erase] at back
    split at back
    · cases back
    · exact interns.below id' text' back

/-- Pending ids are forgotten one after the other. -/
theorem forgetAll : ∀ (victims : List (SchemaId × A)) {c : ValidatorCache A}, Interns (victims.map (·.1)) c r →
    (∀ id ∈ victims.map (·.1), id ∉ r.keys) → (victims.map (·.1)).Nodup →
    Interns [] (victims.foldl (fun c (victim, _) => c.forget victim) c) r
  | [], _, interns, _, _ => interns
  | (victim, _) :: victims, _, interns, gone, nodup => by
    rw [List.map_cons, List.nodup_cons] at nodup
    have forgotten := interns.forget (gone victim List.mem_cons_self) nodup.1
    exact forgetAll victims forgotten (fun id mem => gone id (List.mem_cons_of_mem _ mem)) nodup.2

/-- **A schema without an id** gets the next one, which no artifact has yet. -/
theorem intern (interns : Interns [] c r) (fresh : c.idOf? schema = none) (ahead : c.nextId < c.nextId + 1) :
    c.nextId ∉ r.keys ∧ Interns [c.nextId] (c.intern schema).2 r := by
  have unused : ∀ text, c.schemas[c.nextId]? ≠ some text := fun text here =>
    absurd (interns.below _ text here) (UInt64.lt_irrefl _)
  have unnamed : ∀ id : SchemaId, c.schemas[id]? ≠ some (identity schema) := by
    intro id here
    rw [← interns.inverse, show c.ids[identity schema]? = none from fresh] at here
    cases here
  have absent : c.nextId ∉ r.keys := by
    intro mem
    obtain ⟨text, here⟩ := (interns.held _).2 (.inl mem)
    exact unused text here
  refine ⟨absent, ?_⟩
  rw [ValidatorCache.intern, fresh]
  refine ⟨interns.ties, interns.sound, ?_, ?_, ?_⟩
  · intro text id
    simp only [TreeMap.getElem?_insert, Std.compare_eq_iff_eq]
    by_cases same : c.nextId = id
    · subst same
      by_cases eq : identity schema = text
      · simp [eq]
      · simp [eq, interns.inverse, unused]
    · by_cases eq : identity schema = text
      · subst eq
        simp [same, unnamed]
      · simp [same, eq, interns.inverse]
  · intro id
    have held := interns.held id
    simp only [TreeMap.getElem?_insert, Std.compare_eq_iff_eq]
    by_cases same : c.nextId = id
    · simp [same]
    · simpa [same, Ne.symm same] using held
  · intro id text here
    simp only [TreeMap.getElem?_insert, Std.compare_eq_iff_eq] at here
    split at here
    · next same => exact same ▸ ahead
    · exact UInt64.lt_trans (interns.below id text here) ahead

/-- **An artifact for a pending id** is put in. The one that makes room in a full cache takes its id with it. -/
theorem stored {id : SchemaId} (interns : Interns [id] c r) (absent : id ∉ r.keys) (artifact : A)
    (few : r.touches + 1 < 2 ^ 64) :
    Interns [] (c.store id artifact) (r.insert id artifact).2 := by
  have none := Lru.Recency.find?_eq_none_iff.2 absent
  obtain ⟨same, ties⟩ := interns.ties.insert interns.sound.capacity_pos id artifact few
  have sound := interns.sound.insert id artifact
  unfold ValidatorCache.store
  rcases r.insert_cases interns.sound.capacity_pos id artifact with
    ⟨present, -⟩ | ⟨-, -, eq⟩ | ⟨⟨victim, old⟩, rest, -, -, list, eq⟩
  · rw [none] at present
    cases present
  · rw [eq] at same ties sound ⊢
    rw [same]
    refine interns.recompiled ties sound fun id' => ?_
    simp [Lru.Recency.mem_keys_touch, or_comm]
  · rw [eq] at same ties sound ⊢
    rw [same]
    -- the victim stands in front, and nowhere else
    have nodup := interns.ties.nodup_keys
    rw [list, List.map_cons, List.nodup_cons] at nodup
    have keys : r.keys = victim :: rest.map (·.1) := by rw [Lru.Recency.keys, list, List.map_cons]
    have left : (r.evict 1).keys = rest.map (·.1) := by simp [Lru.Recency.keys, Lru.Recency.evict, list]
    have other : victim ≠ id := by
      rintro rfl
      exact absent (keys ▸ List.mem_cons_self)
    have recompiled : Interns [victim] { c with compiled := (c.compiled.insert id artifact).2 }
        ((r.evict 1).touch id artifact) := by
      refine interns.recompiled ties sound fun id' => ?_
      rw [Lru.Recency.mem_keys_touch, left, keys]
      simp only [List.mem_cons, List.not_mem_nil, or_false]
      tauto
    refine recompiled.forget ?_ (by simp)
    rw [Lru.Recency.mem_keys_touch, left]
    exact fun mem => mem.elim other nodup.1

/-! ## The ways of a request -/

/-- **An artifact that is there** is given, and touched. -/
theorem kept (interns : Interns [] c r) (compile : Json → Except CacheError A) {id : SchemaId}
    (known : c.idOf? schema = some id) (few : r.touches + 1 < 2 ^ 64) :
    ∃ artifact, r.find? id = some artifact ∧ (c.getOrCompile schema compile).1 = (.ok artifact, false) ∧
      Interns [] (c.getOrCompile schema compile).2 { r.touch id artifact with hits := r.hits + 1 } := by
  have mem : id ∈ r.keys := by
    have here := (interns.held id).1 ⟨_, (interns.inverse _ id).1 known⟩
    simpa using here
  obtain ⟨artifact, found⟩ := Option.isSome_iff_exists.1 (Lru.Recency.find?_isSome_iff.2 mem)
  have touched : r.get id = (some artifact, { r.touch id artifact with hits := r.hits + 1 }) := by
    rw [Lru.Recency.get, found]
  obtain ⟨same, ties⟩ := interns.ties.get id (by rw [touched]; exact few)
  have sound := interns.sound.call (.get id)
  rw [Lru.Recency.call] at sound
  rw [touched] at same ties sound
  refine ⟨artifact, found, ?_⟩
  rw [getOrCompile, c.intern_of_known schema known]
  dsimp only
  split
  · next artifact' compiled eq =>
    rw [eq] at same ties
    cases same
    refine ⟨rfl, interns.recompiled ties sound fun id' => ?_⟩
    have keys : id' ∈ (r.touch id artifact).keys ↔ id' = id ∨ id' ∈ r.keys := Lru.Recency.mem_keys_touch artifact
    simp only [List.not_mem_nil, or_false]
    refine keys.trans (or_iff_right_of_imp ?_)
    rintro rfl
    exact mem
  · next compiled eq =>
    rw [eq] at same
    cases same

section Missing

variable (interns : Interns [] c r) (fresh : c.idOf? schema = none) (ahead : c.nextId < c.nextId + 1)
include interns fresh ahead

/-- A look-up of the next id finds nothing. -/
theorem missed (few : r.touches < 2 ^ 64) : (c.compiled.get c.nextId).1 = none ∧
    Interns [c.nextId] { (c.intern schema).2 with compiled := (c.compiled.get c.nextId).2 }
      { r with misses := r.misses + 1 } := by
  obtain ⟨absent, interned⟩ := interns.intern fresh ahead
  have none := Lru.Recency.find?_eq_none_iff.2 absent
  have looked : r.get c.nextId = (.none, { r with misses := r.misses + 1 }) := by rw [Lru.Recency.get, none]
  obtain ⟨same, ties⟩ := interns.ties.get c.nextId (by rw [looked]; exact few)
  have sound := interns.sound.call (.get c.nextId)
  rw [Lru.Recency.call] at sound
  rw [looked] at same ties sound
  exact ⟨same, interned.recompiled ties sound fun id => Iff.rfl⟩

/-- **An artifact that cannot be compiled** leaves no id behind. -/
theorem failed (few : r.touches < 2 ^ 64) {compile : Json → Except CacheError A} {e : CacheError}
    (fails : compile schema = .error e) : (c.getOrCompile schema compile).1 = (.error e, true) ∧
      Interns [] (c.getOrCompile schema compile).2 { r with misses := r.misses + 1 } := by
  obtain ⟨none, interned⟩ := interns.missed fresh ahead few
  have absent := (interns.intern fresh ahead).1
  rw [getOrCompile, c.intern_of_fresh schema fresh]
  dsimp only
  rw [compiled_intern]
  split
  · next artifact compiled eq =>
    rw [eq] at none
    cases none
  · next compiled' eq =>
    rw [eq] at interned
    rw [fails]
    exact ⟨rfl, interned.forget absent (by simp)⟩

/-- **An artifact that is compiled** is kept. In a full cache the artifact that was touched longest ago makes room,
and its id goes with it. -/
theorem compiled (few : r.touches + 1 < 2 ^ 64) {compile : Json → Except CacheError A} {artifact : A}
    (succeeds : compile schema = .ok artifact) : (c.getOrCompile schema compile).1 = (.ok artifact, true) ∧
      Interns [] (c.getOrCompile schema compile).2
        (({ r with misses := r.misses + 1 } : Lru.Recency SchemaId A).insert c.nextId artifact).2 := by
  obtain ⟨none, interned⟩ := interns.missed fresh ahead (Nat.lt_of_succ_lt few)
  have absent := (interns.intern fresh ahead).1
  have stored := interned.stored absent artifact few
  rw [getOrCompile, c.intern_of_fresh schema fresh]
  dsimp only
  rw [compiled_intern]
  split
  · next artifact' compiled eq =>
    rw [eq] at none
    cases none
  · next compiled' eq =>
    rw [eq] at stored
    rw [succeeds]
    exact ⟨rfl, stored⟩

end Missing

/-! ## Calls keep the tie -/

/-- **A change of the capacity** drops ids with the artifacts that are too many. -/
theorem resized (interns : Interns [] c r) (capacity : Nat) :
    Interns [] (c.after (.resize capacity)) (r.resize capacity).2 := by
  by_cases zero : capacity = 0
  · subst zero
    exact interns
  · have granted : r.resize capacity = (.ok (r.entries.take (r.entries.length - capacity)),
        { r.evict (r.entries.length - capacity) with capacity := capacity }) := if_neg zero
    obtain ⟨same, ties⟩ := interns.ties.resize capacity
    have sound := interns.sound.call (.resize capacity)
    rw [Lru.Recency.call] at sound
    rw [granted] at same ties sound ⊢
    simp only [Lru.call] at same ties
    simp only [ValidatorCache.after, resize]
    cases done : c.compiled.resize capacity with
    | error e =>
      rw [done] at same
      cases same
    | ok resized =>
      obtain ⟨evicted, compiled⟩ := resized
      rw [done] at same ties
      cases same
      -- the keys are split in two: those dropped, and those that stay
      have nodup := interns.ties.nodup_keys
      rw [← List.take_append_drop (r.entries.length - capacity) r.entries, List.map_append, List.nodup_append] at nodup
      obtain ⟨nodup, -, disjoint⟩ := nodup
      have split : ∀ id, id ∈ r.keys ↔ id ∈ (r.entries.take (r.entries.length - capacity)).map (·.1) ∨
          id ∈ (r.entries.drop (r.entries.length - capacity)).map (·.1) := fun id => by
        rw [← List.mem_append, ← List.map_append, List.take_append_drop, Lru.Recency.keys]
      refine forgetAll _ (interns.recompiled ties sound fun id => ?_)
        (fun id mem mem' => disjoint id mem id mem' rfl) nodup
      rw [split]
      simp only [List.not_mem_nil, or_false]
      exact or_comm

theorem cleared (interns : Interns [] c r) (few : r.touches < 2 ^ 64) :
    Interns [] c.clear { r with entries := [] } := by
  obtain ⟨-, ties⟩ := interns.ties.call interns.sound.capacity_pos .clear few
  refine ⟨ties, interns.sound.call .clear, ?_, ?_, ?_⟩
  · simp [ValidatorCache.clear]
  · simp [ValidatorCache.clear, Lru.Recency.keys]
  · simp [ValidatorCache.clear]

theorem recounted (interns : Interns [] c r) (few : r.touches < 2 ^ 64) :
    Interns [] c.resetStats { r with hits := 0, misses := 0, evictions := 0 } := by
  obtain ⟨-, ties⟩ := interns.ties.call interns.sound.capacity_pos .resetStats few
  exact interns.recompiled ties (interns.sound.call .resetStats) fun id => Iff.rfl

/-- **Every call** keeps the tie, and touches one artifact at most. -/
theorem after (interns : Interns [] c r) (call : Call A) (few : r.touches + 1 < 2 ^ 64)
    (ahead : c.nextId < c.nextId + 1) :
    ∃ r', Interns [] (c.after call) r' ∧ r'.touches ≤ r.touches + 1 ∧
      r'.capacity = match call with
        | .resize n => if n = 0 then r.capacity else n
        | _ => r.capacity := by
  cases call with
  | getOrCompile schema compile =>
    cases known : c.idOf? schema with
    | some id =>
      obtain ⟨artifact, -, -, interns⟩ := interns.kept compile known few
      exact ⟨_, interns, Nat.le_refl _, rfl⟩
    | none =>
      cases made : compile schema with
      | error e =>
        obtain ⟨-, interns⟩ := interns.failed known ahead (Nat.lt_of_succ_lt few) made
        exact ⟨_, interns, Nat.le_succ _, rfl⟩
      | ok artifact =>
        obtain ⟨-, interns⟩ := interns.compiled known ahead few made
        refine ⟨_, interns, ?_, ?_⟩
        · exact Nat.le_of_eq (Lru.Recency.touches_insert ..)
        · exact Lru.Recency.capacity_insert ..
  | clear => exact ⟨_, interns.cleared (Nat.lt_of_succ_lt few), Nat.le_succ _, rfl⟩
  | resize capacity =>
    refine ⟨_, interns.resized capacity, ?_, ?_⟩
    · exact Nat.le_succ_of_le (Nat.le_of_eq (by unfold Lru.Recency.resize; split <;> rfl))
    · unfold Lru.Recency.resize
      split <;> simp_all
  | resetStats => exact ⟨_, interns.recounted (Nat.lt_of_succ_lt few), Nat.le_succ _, rfl⟩

/-- There are as many ids as artifacts. -/
theorem interned_eq (interns : Interns [] c r) : c.interned = c.size := by
  have texts : (c.ids.toList.map Prod.swap).Perm c.schemas.toList := by
    have nodup := (Lru.nodup_of_sorted c.ids.ordered_keys_toList).map Prod.swap_injective
    refine (List.perm_ext_iff_of_nodup nodup (Lru.nodup_of_sorted c.schemas.ordered_keys_toList)).2 ?_
    rintro ⟨id, text⟩
    rw [TreeMap.mem_toList_iff_getElem?_eq_some, ← interns.inverse, ← TreeMap.mem_toList_iff_getElem?_eq_some]
    simp
  have keys : c.schemas.keys.Perm r.keys := by
    refine (List.perm_ext_iff_of_nodup TreeMap.nodup_keys interns.ties.nodup_keys).2 fun id => ?_
    rw [TreeMap.mem_keys, TreeMap.mem_iff_isSome_getElem?, Option.isSome_iff_exists, interns.held]
    simp [Lru.Recency.keys]
  calc c.ids.size = c.schemas.toList.length := by
        rw [← TreeMap.length_toList, ← texts.length_eq, List.length_map]
    _ = r.keys.length := by rw [TreeMap.length_toList, ← TreeMap.length_keys, keys.length_eq]
    _ = c.compiled.size := by rw [interns.ties.length, Lru.Recency.keys, List.length_map]

end Interns

/-! ## Ids that are given, and texts that stay -/

/-- A cache gets no texts and gives no ids. -/
structure Sheds (c d : ValidatorCache A) : Prop where
  nextId : d.nextId = c.nextId
  kept : ∀ (id : SchemaId) (text : String), d.schemas[id]? = some text → c.schemas[id]? = some text

namespace Sheds

theorem refl (c : ValidatorCache A) : Sheds c c := ⟨rfl, fun _ _ here => here⟩

theorem trans {c d e : ValidatorCache A} (a : Sheds c d) (b : Sheds d e) : Sheds c e :=
  ⟨b.nextId.trans a.nextId, fun id text here => a.kept id text (b.kept id text here)⟩

theorem forget (c : ValidatorCache A) (id : SchemaId) : Sheds c (c.forget id) := by
  unfold ValidatorCache.forget
  split
  · exact refl c
  · refine ⟨rfl, fun id' text here => ?_⟩
    simp only [TreeMap.getElem?_erase] at here
    split at here
    · cases here
    · exact here

theorem forgetAll : ∀ (victims : List (SchemaId × A)) (c : ValidatorCache A),
    Sheds c (victims.foldl (fun c (victim, _) => c.forget victim) c)
  | [], c => refl c
  | (victim, _) :: victims, c => (forget c victim).trans (forgetAll victims (c.forget victim))

/-- A request, once its schema has an id. -/
theorem getOrCompile (c : ValidatorCache A) (schema : Json) (compile : Json → Except CacheError A) :
    Sheds (c.intern schema).2 (c.getOrCompile schema compile).2 := by
  have recompiled : ∀ {d : ValidatorCache A} (compiled : Lru SchemaId A), Sheds d { d with compiled := compiled } :=
    fun _ => ⟨rfl, fun _ _ here => here⟩
  unfold ValidatorCache.getOrCompile
  dsimp only
  split
  · exact recompiled _
  · split
    · exact (recompiled _).trans (forget _ _)
    · dsimp only
      split
      · exact (recompiled _).trans (forget _ _)
      · exact recompiled _

end Sheds

section Given

variable {c : ValidatorCache A} {call : Call A} {id : SchemaId} {text : String}

/-- A call that gives no id out leaves nothing new. -/
theorem sheds_after (none : Event.given? ⟨c, call⟩ = none) : Sheds c (c.after call) := by
  cases call with
  | getOrCompile schema compile =>
    unfold Event.given? at none
    dsimp only at none
    split at none
    · next id known =>
      have sheds := Sheds.getOrCompile c schema compile
      rwa [c.intern_of_known schema known] at sheds
    · cases none
  | clear => exact ⟨rfl, fun id text here => by simp [after, clear] at here⟩
  | resize capacity =>
    unfold after resize
    dsimp only
    cases c.compiled.resize capacity with
    | error e => exact .refl c
    | ok resized =>
      exact (⟨rfl, fun _ _ here => here⟩ : Sheds c { c with compiled := resized.2 }).trans (.forgetAll _ _)
  | resetStats => exact ⟨rfl, fun _ _ here => here⟩

/-- **An id that is given** is the next one. -/
theorem given_spec (given : Event.given? ⟨c, call⟩ = some (id, text)) : id = c.nextId ∧
    (c.after call).nextId = c.nextId + 1 ∧ ∀ (id' : SchemaId) (text' : String),
      (c.after call).schemas[id']? = some text' → c.schemas[id']? = some text' ∨ (id', text') = (id, text) := by
  cases call with
  | getOrCompile schema compile =>
    unfold Event.given? at given
    dsimp only at given
    split at given
    · cases given
    · next fresh =>
      have sheds := Sheds.getOrCompile c schema compile
      rw [intern, fresh] at given sheds
      cases given
      refine ⟨rfl, sheds.nextId, fun id' text' here => ?_⟩
      have there := sheds.kept id' text' here
      simp only [TreeMap.getElem?_insert, Std.compare_eq_iff_eq] at there
      split at there
      · next same =>
        cases there
        exact .inr (by rw [same])
      · exact .inl there
  | clear | resize | resetStats => cases given

/-- **What has a text** after a call had it before, or was given it by the call. -/
theorem given_of_after (here : (c.after call).schemas[id]? = some text) :
    c.schemas[id]? = some text ∨ Event.given? ⟨c, call⟩ = some (id, text) := by
  cases given : Event.given? ⟨c, call⟩ with
  | none => exact .inl ((sheds_after given).kept id text here)
  | some p =>
    obtain ⟨-, -, texts⟩ := given_spec given
    exact (texts id text here).imp_right fun eq => by rw [eq]

/-- What has no text gets one only by being given one. -/
theorem none_after (none : c.schemas[id]? = none) (ungiven : ∀ text, Event.given? ⟨c, call⟩ ≠ some (id, text)) :
    (c.after call).schemas[id]? = .none := by
  by_contra some
  obtain ⟨text, here⟩ := Option.ne_none_iff_exists'.1 some
  rcases given_of_after here with there | now
  · rw [none] at there
    cases there
  · exact ungiven text now

end Given

/-! ## Histories -/

section Histories

variable {capacity : Nat} {h later earlier : List (Event A)} {e : Event A} {c : ValidatorCache A}

theorem given_append (h h' : List (Event A)) : given (h ++ h') = given h ++ given h' := List.filterMap_append

theorem mem_given_cons {p : SchemaId × String} : p ∈ given (e :: h) ↔ Event.given? e = some p ∨ p ∈ given h := by
  rw [given, List.mem_filterMap, List.exists_mem_cons_iff, given, List.mem_filterMap]

theorem length_given_le (h : List (Event A)) : (given h).length ≤ h.length := List.length_filterMap_le ..

/-- A cache that was created has no ids. -/
theorem compiled_of_create (create : ValidatorCache.create capacity = .ok c) :
    ∃ compiled, Lru.create capacity = .ok compiled ∧ c = ⟨∅, ∅, 0, compiled⟩ := by
  unfold ValidatorCache.create at create
  cases made : (Lru.create capacity : Except CacheError (Lru SchemaId A)) with
  | error _ =>
    rw [made] at create
    cases create
  | ok compiled =>
    rw [made] at create
    cases create
    exact ⟨compiled, rfl, rfl⟩

theorem interns_of_create (create : ValidatorCache.create capacity = .ok c) : Interns [] c (.ofCapacity capacity) := by
  obtain ⟨compiled, created, rfl⟩ := compiled_of_create create
  obtain ⟨pos, ties⟩ := Lru.represents_of_create created
  refine ⟨ties, .ofCapacity pos, ?_, ?_, ?_⟩
  · simp
  · simp [Lru.Recency.keys, Lru.Recency.ofCapacity]
  · simp

/-- **Ids are given in order**, from zero on. -/
theorem History.ids_given (history : History capacity h c) : c.nextId = .ofNat (given h).length ∧
    ((given h).map (·.1)).reverse = (List.range (given h).length).map UInt64.ofNat := by
  induction history with
  | create create =>
    obtain ⟨compiled, -, rfl⟩ := compiled_of_create create
    exact ⟨rfl, rfl⟩
  | @call h c call _ ih =>
    obtain ⟨next, ids⟩ := ih
    cases is : Event.given? ⟨c, call⟩ with
    | none =>
      rw [given, List.filterMap_cons_none is, (sheds_after is).nextId]
      exact ⟨next, ids⟩
    | some p =>
      obtain ⟨first, after, -⟩ := given_spec is
      rw [given, List.filterMap_cons_some is, after, next, List.length_cons, Words.ofNat_succ, List.range_succ,
        List.map_append, List.map_cons, List.reverse_cons]
      exact ⟨rfl, congrArg₂ _ ids (by rw [first, next]; rfl)⟩

/-- No id is given twice. -/
theorem History.nodup_given (history : History capacity h c) (few : h.length < 2 ^ 64) :
    ((given h).map (·.1)).Nodup := by
  rw [← List.nodup_reverse, history.ids_given.2]
  refine List.pairwise_map.2 (List.nodup_range.imp_of_mem fun {m n} hm hn other eq => other ?_)
  have le := length_given_le h
  rw [List.mem_range] at hm hn
  have eq := congrArg UInt64.toNat eq
  rwa [Words.toNat_ofNat (by omega), Words.toNat_ofNat (by omega)] at eq

/-- **Every cache with a history** is tied to an account. -/
theorem History.interns (history : History capacity h c) (few : h.length < 2 ^ 64) :
    ∃ r, Interns [] c r ∧ r.touches ≤ h.length ∧ r.capacity = room capacity h := by
  induction history with
  | create create => exact ⟨_, interns_of_create create, Nat.le_refl _, rfl⟩
  | @call h c call history ih =>
    rw [List.length_cons] at few
    obtain ⟨r, interns, touches, granted⟩ := ih (Nat.lt_of_succ_lt few)
    have ahead : c.nextId < c.nextId + 1 := by
      rw [history.ids_given.1]
      exact Words.lt_succ (Nat.lt_of_le_of_lt (Nat.succ_le_succ (length_given_le h)) few)
    obtain ⟨r', interns, touches', granted'⟩ := interns.after call (by omega) ahead
    refine ⟨r', interns, Nat.le_trans touches' (Nat.succ_le_succ touches), ?_⟩
    rw [granted', granted]
    cases call <;> rfl

/-- What has a text was given it. -/
theorem History.given_of_text (history : History capacity h c) {id : SchemaId} {text : String}
    (here : c.schemas[id]? = some text) : (id, text) ∈ given h := by
  induction history with
  | create create =>
    obtain ⟨compiled, -, rfl⟩ := compiled_of_create create
    simp at here
  | @call h c call _ ih =>
    rcases given_of_after here with before | now
    · exact mem_given_cons.2 (.inr (ih before))
    · exact mem_given_cons.2 (.inl now)

/-- **An id that was dropped** is not given again, and has no text ever after. -/
theorem History.stays_dropped : ∀ {later : List (Event A)} {c : ValidatorCache A},
    History capacity (later ++ e :: earlier) c → (later ++ e :: earlier).length < 2 ^ 64 →
    ∀ {id : SchemaId} {text : String}, (id, text) ∈ given earlier → e.cache.schemas[id]? = none →
      (∀ text', (id, text') ∉ given (later ++ [e])) ∧ c.schemas[id]? = none := by
  intro later c history few id text before dropped
  have again : ∀ text', (id, text') ∉ given (later ++ [e]) := by
    intro text' mem
    have nodup := history.nodup_given few
    rw [List.append_cons, given_append, List.map_append, List.nodup_append] at nodup
    exact nodup.2.2 id (List.mem_map.2 ⟨_, mem, rfl⟩) id (List.mem_map.2 ⟨_, before, rfl⟩) rfl
  refine ⟨again, ?_⟩
  -- by induction on what came later: no call gives the id a text
  induction later generalizing c with
  | nil =>
    cases history with
    | call call history =>
      exact none_after dropped fun text' is => again text' (mem_given_cons.2 (.inl is))
  | cons d later ih =>
    cases history with
    | call call history =>
      rw [List.cons_append, List.length_cons] at few
      have before := ih history (Nat.lt_of_succ_lt few) fun text' mem => again text' (mem_given_cons.2 (.inr mem))
      exact none_after before fun text' is => again text' (mem_given_cons.2 (.inl is))

/-- **Ids and artifacts match after every history.** Ids and schema texts are inverse to each other, and the ids that
a text has are those that have an artifact. So there are as many of them as artifacts, which are no more than the
capacity that was granted last, and all are below the next id. No id is given out twice: what has an id was given it,
and an id that was dropped neither is given again nor comes back. -/
theorem ids_match_artifacts (history : History capacity h c) (few : h.length < 2 ^ 64) :
    (∀ (text : String) (id : SchemaId), c.ids[text]? = some id ↔ c.schemas[id]? = some text) ∧
    (∀ id : SchemaId, (∃ text : String, c.ids[text]? = some id) ↔ c.compiled.contains id = true) ∧
    c.interned = c.size ∧ c.size ≤ c.compiled.capacity ∧ c.compiled.capacity = room capacity h ∧
    (∀ (text : String) (id : SchemaId), c.ids[text]? = some id → id < c.nextId ∧ (id, text) ∈ given h) ∧
    ((given h).map (·.1)).Nodup ∧
    ∀ later e earlier, h = later ++ e :: earlier → ∀ (id : SchemaId) (text : String), (id, text) ∈ given earlier →
      e.cache.schemas[id]? = none →
        (∀ text', (id, text') ∉ given (later ++ [e])) ∧ ∀ text' : String, c.ids[text']? ≠ some id := by
  obtain ⟨r, interns, -, granted⟩ := history.interns few
  have capacity_eq := interns.ties.capacity.trans granted
  refine ⟨interns.inverse, fun id => ?_, interns.interned_eq, ?_, capacity_eq, fun text id here => ?_,
    history.nodup_given few, ?_⟩
  · have held := interns.held id
    simp only [List.not_mem_nil, or_false] at held
    simp only [interns.inverse]
    rw [held, ← Lru.Recency.find?_isSome_iff, ← interns.ties.peek?_eq, Lru.peek?, Option.isSome_map, Lru.contains,
      TreeMap.contains_eq_isSome_getElem?]
  · rw [interns.ties.capacity]
    exact interns.ties.length.trans_le interns.sound.length_le
  · have there := (interns.inverse text id).1 here
    exact ⟨interns.below id text there, history.given_of_text there⟩
  · rintro later e earlier rfl id text before dropped
    obtain ⟨again, gone⟩ := history.stays_dropped few before dropped
    refine ⟨again, fun text' here => ?_⟩
    rw [interns.inverse, gone] at here
    cases here

/-- A schema that was cleared away and one that could not be compiled leave nothing behind. The first gets a new id
when it comes again. -/
theorem ids_match_artifacts_again : ∃ (h : List (Event Nat)) (c : ValidatorCache Nat), History 2 h c ∧
    h.length < 2 ^ 64 ∧ given h = [(3, "null"), (2, "false"), (1, "true"), (0, "null")] ∧ c.idOf? .null = some 3 ∧
    c.interned = c.size ∧ c.size = 1 ∧ ∀ text : String, c.ids[text]? ≠ some 0 := by
  let first : ValidatorCache Nat := ⟨∅, ∅, 0, ⟨∅, ∅, 0, 2, {}, by decide⟩⟩
  have history := (show History 2 [] first from .create rfl)
    |>.call (.getOrCompile .null fun _ => .ok 10) |>.call (.getOrCompile (.bool true) fun _ => .ok 20)
    |>.call .clear |>.call (.getOrCompile (.bool false) fun _ => .error (.compile "no")) |>.call (.resize 0)
    |>.call (.getOrCompile .null fun _ => .ok 30)
  obtain ⟨-, -, interned, -, -, -, -, dropped⟩ := ids_match_artifacts history (by decide)
  obtain ⟨-, gone⟩ := dropped [_, _] _ _ rfl 0 "null" (by decide +kernel) (by decide +kernel)
  exact ⟨_, _, history, by decide, by decide +kernel, by decide +kernel, interned, by decide +kernel,
    gone⟩

end Histories

end ValidatorCache

end ResponseCache
