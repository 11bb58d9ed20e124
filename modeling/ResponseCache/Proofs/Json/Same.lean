import Mathlib.Data.List.Forall2
import Mathlib.Data.List.Induction
import ResponseCache.Proofs.Json.Text

/-!
# Values that are the same up to the order of fields

What stands in a value is found by a path of field names and positions (`Json.at?`). Two values are the `Same` when
every path leads, in both, to the same scalar, to an array or to an object, or nowhere. So the order of fields does
not count, at any depth, and the order of items does; of repeated names the last one counts, as it does where values
are made canonical.

The canonical form is the same value (`at?_canonical`), and values that are the same have one canonical form
(`Same.canonical_eq`).
-/

namespace ResponseCache.Json

/-! ## Paths -/

/-- A step from an object to one of its fields or from an array to one of its items. -/
inductive Step where
  | field (name : String)
  | item (position : Nat)
  deriving Repr, DecidableEq

/-- The value of the last field of a name. -/
def last? (name : String) (fields : List (String × Json)) : Option Json := fields.reverse.lookup name

def child? : Json → Step → Option Json
  | .object fields, .field name => last? name fields
  | .array items, .item position => items[position]?
  | _, _ => none

/-- What stands at the end of a path. -/
def at? (v : Json) : List Step → Option Json
  | [] => some v
  | step :: path => (v.child? step).bind (·.at? path)

/-- A value without what stands in it: a scalar is kept as it is. -/
def shell : Json → Json
  | .array _ => .array []
  | .object _ => .object []
  | v => v

/-- **Equal up to the order of fields**, at every depth. -/
def Same (v w : Json) : Prop := ∀ path, (v.at? path).map shell = (w.at? path).map shell

namespace Same

variable {v w x : Json}

@[refl] theorem refl (v : Json) : v.Same v := fun _ => rfl

theorem symm (same : v.Same w) : w.Same v := fun path => (same path).symm

theorem trans (same : v.Same w) (same' : w.Same x) : v.Same x := fun path => (same path).trans (same' path)

theorem shell_eq (same : v.Same w) : v.shell = w.shell := Option.some.inj (same [])

theorem child (same : v.Same w) (step : Step) : Option.Rel Same (v.child? step) (w.child? step) := by
  have behind : ∀ path, ((v.child? step).bind (·.at? path)).map shell = ((w.child? step).bind (·.at? path)).map shell :=
    fun path => same (step :: path)
  generalize v.child? step = a at behind ⊢
  generalize w.child? step = b at behind ⊢
  cases a with
  | none =>
    cases b with
    | none => exact .none
    | some w => cases behind []
  | some v =>
    cases b with
    | none => cases behind []
    | some w => exact .some behind

/-- Values are the same if their shells are and what stands in them. -/
theorem of_children (shells : v.shell = w.shell) (children : ∀ step, Option.Rel Same (v.child? step) (w.child? step)) :
    v.Same w := by
  intro path
  cases path with
  | nil => exact congrArg some shells
  | cons step path =>
    show ((v.child? step).bind (·.at? path)).map shell = ((w.child? step).bind (·.at? path)).map shell
    have related := children step
    generalize v.child? step = a at related ⊢
    generalize w.child? step = b at related ⊢
    cases related with
    | none => rfl
    | some same => exact same path

end Same

/-! ## Sorted fields -/

theorem last?_append (name : String) (fields : List (String × Json)) (f : String × Json) :
    last? name (fields ++ [f]) = if name = f.1 then some f.2 else last? name fields := by
  rw [last?, List.reverse_append, List.reverse_singleton, List.singleton_append, List.lookup_cons]
  split
  · next eq => rw [if_pos (eq_of_beq eq)]
  · next ne => rw [if_neg (ne_of_beq_false ne)]; rfl

theorem last?_map (g : Json → Json) (name : String) (fields : List (String × Json)) :
    last? name (fields.map fun f => (f.1, g f.2)) = (last? name fields).map g := by
  induction fields using List.reverseRecOn with
  | nil => rfl
  | append_singleton fields f ih =>
    rw [List.map_append, List.map_singleton, last?_append, last?_append, ih]
    split <;> rfl

theorem mem_of_last? {name : String} {v : Json} {fields : List (String × Json)} (last : last? name fields = some v) :
    (name, v) ∈ fields := by
  obtain ⟨before, after, eq, -⟩ := List.lookup_eq_some_iff.1 last
  exact List.mem_reverse.1 (eq ▸ List.mem_append_right _ List.mem_cons_self)

theorem ne_of_last?_eq_none {name : String} {fields : List (String × Json)} (none : last? name fields = none)
    {f : String × Json} (mem : f ∈ fields) : f.1 ≠ name := by
  rintro rfl
  have absent := List.lookup_eq_none_iff.1 none f (List.mem_reverse.2 mem)
  simp at absent

theorem getElem?_foldl_insert (fields : List (String × Json)) (name : String) :
    (fields.foldl (fun m f => m.insert f.1 f.2) (∅ : Std.TreeMap String Json))[name]? = last? name fields := by
  induction fields using List.reverseRecOn with
  | nil => rfl
  | append_singleton fields f ih =>
    rw [List.foldl_append, List.foldl_cons, List.foldl_nil, Std.TreeMap.getElem?_insert, ih, last?_append]
    simp only [Std.compare_eq_iff_eq, eq_comm (a := f.1)]

/-- **Sorted fields** depend on the last field of each name only. -/
theorem sortFields_congr {fields fields' : List (String × Json)} (eq : ∀ name, last? name fields = last? name fields') :
    sortFields fields = sortFields fields' := by
  refine (Std.TreeMap.Equiv.of_forall_constGet?_eq fun name => ?_).toList_eq
  rw [getElem?_foldl_insert, getElem?_foldl_insert, eq]

theorem mem_sortFields {fields : List (String × Json)} {name : String} {v : Json} :
    (name, v) ∈ sortFields fields ↔ last? name fields = some v := by
  rw [sortFields, Std.TreeMap.mem_toList_iff_getElem?_eq_some, getElem?_foldl_insert]

/-- Sorting keeps the last field of each name. -/
theorem last?_sortFields (name : String) (fields : List (String × Json)) :
    last? name (sortFields fields) = last? name fields := by
  cases last : last? name fields with
  | none =>
    cases last' : last? name (sortFields fields) with
    | none => rfl
    | some v => cases last.symm.trans (mem_sortFields.1 (mem_of_last? last'))
  | some v =>
    have mem := mem_sortFields.2 last
    cases last' : last? name (sortFields fields) with
    | none => exact (ne_of_last?_eq_none last' mem rfl).elim
    | some w => rw [← last, ← mem_sortFields.1 (mem_of_last? last')]

/-! ## Canonical forms -/

theorem child?_canonical (v : Json) (step : Step) : v.canonical.child? step = (v.child? step).map canonical := by
  cases v with
  | array items =>
    rw [canonical_array]
    cases step with
    | field name => rfl
    | item i => exact List.getElem?_map
  | object fields =>
    rw [canonical_object]
    cases step with
    | field name => exact (last?_sortFields _ _).trans (last?_map _ _ _)
    | item i => rfl
  | _ => rfl

theorem shell_canonical (v : Json) : v.canonical.shell = v.shell := by
  cases v with
  | array items => rw [canonical_array]; rfl
  | object fields => rw [canonical_object]; rfl
  | _ => rfl

/-- **Every path** leads, in the canonical form, to the canonical form of what stands there. -/
theorem at?_canonical (v : Json) (path : List Step) : v.canonical.at? path = (v.at? path).map canonical := by
  induction path generalizing v with
  | nil => rfl
  | cons step path ih =>
    rw [at?, at?, child?_canonical, Option.map_bind, Option.bind_map]
    exact Option.bind_congr fun w _ => ih w

/-- **The canonical form** is the same value. -/
theorem same_canonical (v : Json) : v.Same v.canonical := fun path => by
  rw [at?_canonical, Option.map_map]
  exact congrArg (Option.map · _) (funext fun w => (shell_canonical w).symm)

/-- Values by what stands in them. -/
@[elab_as_elim]
theorem values_induction {P : Json → Prop} (null : P .null) (bool : ∀ b, P (.bool b)) (number : ∀ n, P (.number n))
    (string : ∀ s, P (.string s)) (array : ∀ items, (∀ v ∈ items, P v) → P (.array items))
    (object : ∀ fields : List (String × Json), (∀ f ∈ fields, P f.2) → P (.object fields)) : ∀ v, P v
  | .null => null
  | .bool b => bool b
  | .number n => number n
  | .string s => string s
  | .array items => array items fun v _ => values_induction null bool number string array object v
  | .object fields => object fields fun f _ => values_induction null bool number string array object f.2
termination_by v => sizeOf v
decreasing_by
  · have := List.sizeOf_lt_of_mem ‹_ ∈ _›
    simp
    omega
  · have := List.sizeOf_lt_of_mem ‹_ ∈ _›
    obtain ⟨name, v⟩ := f
    simp at *
    omega

/-- Values that may be missing, when those that stand in some value have the canonical form of all that are the same. -/
theorem map_canonical_eq {a b : Option Json} (related : Option.Rel Same a b)
    (here : ∀ v, a = some v → ∀ w, v.Same w → v.canonical = w.canonical) : a.map canonical = b.map canonical := by
  cases related with
  | none => rfl
  | some same => exact congrArg some (here _ rfl _ same)

/-- **Values that are the same** have one canonical form. -/
theorem Same.canonical_eq {v w : Json} (same : v.Same w) : v.canonical = w.canonical := by
  induction v using values_induction generalizing w with
  | array items ih =>
    cases w with
    | array items' =>
      rw [canonical_array, canonical_array]
      refine congrArg Json.array (List.ext_getElem? fun i => ?_)
      rw [List.getElem?_map, List.getElem?_map]
      exact map_canonical_eq (same.child (.item i)) fun v at_i w => ih v (List.mem_of_getElem? at_i)
    | _ => cases same.shell_eq
  | object fields ih =>
    cases w with
    | object fields' =>
      rw [canonical_object, canonical_object]
      refine congrArg Json.object (sortFields_congr fun name => ?_)
      rw [last?_map, last?_map]
      exact map_canonical_eq (same.child (.field name)) fun v last w => ih _ (mem_of_last? last)
    | _ => cases same.shell_eq
  | _ => cases w <;> first | (cases same.shell_eq; rfl) | cases same.shell_eq

/-! ## Related values -/

section Related

variable {R : Json → Json → Prop}

theorem rel_getElem? {items items' : List Json} (all : List.Forall₂ R items items') (i : Nat) :
    Option.Rel R items[i]? items'[i]? := by
  induction all generalizing i with
  | nil => exact .none
  | cons here _ ih =>
    cases i with
    | zero => exact .some here
    | succ i => exact ih i

theorem rel_last? {fields fields' : List (String × Json)}
    (all : List.Forall₂ (fun f g => f.1 = g.1 ∧ R f.2 g.2) fields fields') (name : String) :
    Option.Rel R (last? name fields) (last? name fields') := by
  have reversed := List.forall₂_reverse_iff.2 all
  unfold last?
  generalize fields.reverse = back at reversed ⊢
  generalize fields'.reverse = back' at reversed ⊢
  induction reversed with
  | nil => exact .none
  | cons here _ ih =>
    rw [List.lookup_cons, List.lookup_cons, ← here.1]
    split
    · exact .some here.2
    · exact ih

end Related

end ResponseCache.Json
