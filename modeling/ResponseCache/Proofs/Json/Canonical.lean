import Mathlib.Data.List.Forall2
import Mathlib.Data.List.Nodup
import ResponseCache.Proofs.Json.Number
import ResponseCache.Proofs.Text.Order

/-!
# Canonical forms

Where no object has two fields of one name, values are the same just if one of them is the other with the fields of
its objects put in another order, at every depth (`same_iff_reordered`). The canonical form puts them in the order of
the bytes of their names (`sortFields_sorted`), and that order is the only thing it changes; so its text tells values
apart just if they are not the same. That is `canonical_form_decides`.
-/

namespace ResponseCache.Json

/-! ## Putting fields in another order -/

/-- The names of fields. -/
def names (fields : List (String × Json)) : List String := fields.map (·.1)

/-- No object, at any depth, has two fields of one name. -/
def Distinct (v : Json) : Prop := ∀ path fields, v.at? path = some (.object fields) → (names fields).Nodup

/-- **Put in another order**: the fields of an object, at any depth, and nothing else. -/
inductive Reordered : Json → Json → Prop
  | refl (v : Json) : Reordered v v
  | array {items items' : List Json} : List.Forall₂ Reordered items items' → Reordered (.array items) (.array items')
  | object {fields between fields' : List (String × Json)} : names fields = names between →
      List.Forall₂ Reordered (fields.map (·.2)) (between.map (·.2)) → between.Perm fields' →
      Reordered (.object fields) (.object fields')

namespace Distinct

variable {v w : Json} {items : List Json} {fields : List (String × Json)}

theorem child (distinct : v.Distinct) (step : Step) (child : v.child? step = some w) : w.Distinct := fun path => by
  have := distinct (step :: path)
  rwa [at?, child] at this

theorem of_children (here : ∀ fields, v = .object fields → (names fields).Nodup)
    (children : ∀ step w, v.child? step = some w → w.Distinct) : v.Distinct := by
  rintro (_ | ⟨step, path⟩) fields eq
  · exact here fields (Option.some.inj eq)
  · obtain ⟨w, child, eq⟩ := Option.bind_eq_some_iff.1 eq
    exact children step w child path fields eq

theorem array (all : ∀ v ∈ items, v.Distinct) : (Json.array items).Distinct := by
  refine .of_children nofun fun step w child => ?_
  cases step with
  | field name => cases child
  | item i => exact all w (List.mem_of_getElem? child)

theorem scalar (leaf : ∀ step, v.child? step = none) (other : ∀ fields, v ≠ .object fields) : v.Distinct :=
  .of_children (fun fields eq => (other fields eq).elim) fun step w child => by cases (leaf step).symm.trans child

theorem object (nodup : (names fields).Nodup) (all : ∀ f ∈ fields, f.2.Distinct) : (Json.object fields).Distinct := by
  refine .of_children (fun _ eq => Json.object.inj eq ▸ nodup) fun step w child => ?_
  cases step with
  | field name => exact all _ (mem_of_last? child)
  | item i => cases child

end Distinct

section Fields

variable {fields fields' : List (String × Json)} {name : String} {v : Json}

/-- Where no name stands twice, the last field of a name is the field of that name. -/
theorem last?_eq_some_iff (nodup : (names fields).Nodup) : last? name fields = some v ↔ (name, v) ∈ fields := by
  refine ⟨mem_of_last?, fun mem => ?_⟩
  cases last : last? name fields with
  | none => exact (ne_of_last?_eq_none last mem rfl).elim
  | some w =>
    have same : (name, w) = (name, v) := List.inj_on_of_nodup_map nodup (mem_of_last? last) mem rfl
    injection same with _ same
    rw [same]

theorem last?_perm (nodup : (names fields).Nodup) (perm : fields.Perm fields') (name : String) :
    last? name fields = last? name fields' := by
  have nodup' : (names fields').Nodup := (perm.map _).nodup_iff.1 nodup
  ext v
  rw [last?_eq_some_iff nodup, last?_eq_some_iff nodup', perm.mem_iff]

/-- Fields with names in common and related values. -/
theorem forall₂_fields {R : Json → Json → Prop} (same : names fields = names fields')
    (all : List.Forall₂ R (fields.map (·.2)) (fields'.map (·.2))) :
    List.Forall₂ (fun f g => f.1 = g.1 ∧ R f.2 g.2) fields fields' := by
  induction fields generalizing fields' with
  | nil =>
    cases fields' with
    | nil => exact .nil
    | cons g rest => cases all
  | cons f rest ih =>
    cases fields' with
    | nil => cases all
    | cons g rest' =>
      injection same with name names
      cases all with
      | cons value values => exact .cons ⟨name, value⟩ (ih names values)

end Fields

/-- Values that may be missing, and are related another way where both are there. -/
theorem rel_imp {R R' : Json → Json → Prop} {a b : Option Json} (related : Option.Rel R a b)
    (here : ∀ v w, a = some v → b = some w → R v w → R' v w) : Option.Rel R' a b := by
  cases related with
  | none => exact .none
  | some rel => exact .some (here _ _ rfl rfl rel)

theorem forall₂_of_rel {R : Json → Json → Prop} {items items' : List Json}
    (all : ∀ i : Nat, Option.Rel R items[i]? items'[i]?) : List.Forall₂ R items items' := by
  induction items generalizing items' with
  | nil =>
    cases items' with
    | nil => exact .nil
    | cons w rest => cases all 0
  | cons v rest ih =>
    cases items' with
    | nil => cases all 0
    | cons w rest' =>
      cases all 0 with
      | some here => exact .cons here (ih fun i => all (i + 1))

/-- **Fields in another order** make the same value. -/
theorem Reordered.same {v w : Json} (distinct : v.Distinct) (reordered : v.Reordered w) : v.Same w := by
  induction v using values_induction generalizing w with
  | array items ih =>
    cases reordered with
    | refl => exact .refl _
    | array all =>
      refine .of_children rfl fun step => ?_
      cases step with
      | field name => exact .none
      | item i =>
        refine rel_imp (rel_getElem? all i) fun v w here _ => ?_
        exact ih v (List.mem_of_getElem? here) (distinct.child (.item i) here)
  | object fields ih =>
    cases reordered with
    | refl => exact .refl _
    | object same all perm =>
      refine .of_children rfl fun step => ?_
      cases step with
      | item i => exact .none
      | field name =>
        have nodup := distinct [] _ rfl
        rw [same] at nodup
        show Option.Rel Same (last? name _) (last? name _)
        rw [← last?_perm nodup perm]
        refine rel_imp (rel_last? (forall₂_fields same all) name) fun v w here _ => ?_
        exact ih _ (mem_of_last? here) (distinct.child (.field name) here)
  | _ => cases reordered; exact .refl _

/-- Fields of the same names with related values can be put into the order of the others. -/
theorem exists_between {R : Json → Json → Prop} {fields fields' : List (String × Json)} (nodup : (names fields).Nodup)
    (nodup' : (names fields').Nodup) (related : ∀ name, Option.Rel R (last? name fields) (last? name fields')) :
    ∃ between, names fields = names between ∧ List.Forall₂ R (fields.map (·.2)) (between.map (·.2)) ∧
      between.Perm fields' := by
  have there : ∀ f ∈ fields, ∃ w, last? f.1 fields' = some w ∧ R f.2 w := by
    intro f mem
    have rel := related f.1
    rw [(last?_eq_some_iff nodup).2 mem] at rel
    cases there : last? f.1 fields' with
    | none => rw [there] at rel; cases rel
    | some w =>
      rw [there, Option.rel_some_some] at rel
      exact ⟨w, rfl, rel⟩
  choose! value named relates using there
  have names_eq : names fields = names (fields.map fun f => (f.1, value f)) := by simp [names]
  refine ⟨fields.map fun f => (f.1, value f), names_eq, ?_, ?_⟩
  · rw [List.map_map, List.forall₂_map_left_iff, List.forall₂_map_right_iff, List.forall₂_same]
    exact relates
  · rw [List.perm_ext_iff_of_nodup (.of_map _ (names_eq ▸ nodup)) (.of_map _ nodup')]
    rintro ⟨name, w⟩
    rw [List.mem_map, ← last?_eq_some_iff nodup']
    constructor
    · rintro ⟨f, mem, eq⟩
      injection eq with same eq
      rw [← same, ← eq, named f mem]
    · intro last
      have rel := related name
      cases here : last? name fields with
      | none => rw [here, last] at rel; cases rel
      | some v =>
        have mem := mem_of_last? here
        refine ⟨(name, v), mem, ?_⟩
        rw [Option.some.inj ((named _ mem).symm.trans last)]

/-- **The same value** has its fields in another order. -/
theorem Same.reordered {v w : Json} (distinct : v.Distinct) (distinct' : w.Distinct) (same : v.Same w) :
    v.Reordered w := by
  induction v using values_induction generalizing w with
  | array items ih =>
    cases w with
    | array items' =>
      refine .array (forall₂_of_rel fun i => rel_imp (same.child (.item i)) fun v w here there => ?_)
      exact ih v (List.mem_of_getElem? here) (distinct.child (.item i) here)
        (distinct'.child (.item i) there)
    | _ => cases same.shell_eq
  | object fields ih =>
    cases w with
    | object fields' =>
      have related : ∀ name, Option.Rel Reordered (last? name fields) (last? name fields') := fun name =>
        rel_imp (same.child (.field name)) fun v w here there =>
          ih _ (mem_of_last? here) (distinct.child (.field name) here) (distinct'.child (.field name) there)
      obtain ⟨between, named, values, perm⟩ := exists_between (distinct [] _ rfl) (distinct' [] _ rfl) related
      exact .object named values perm
    | _ => cases same.shell_eq
  | _ => cases w <;> first | (cases same.shell_eq; exact .refl _) | cases same.shell_eq

theorem same_iff_reordered {v w : Json} (distinct : v.Distinct) (distinct' : w.Distinct) : v.Same w ↔ v.Reordered w :=
  ⟨Same.reordered distinct distinct', Reordered.same distinct⟩

/-! ## Canonical forms -/

/-- **Sorted fields** are in strictly increasing order of their names. -/
theorem sortFields_sorted (fields : List (String × Json)) : (sortFields fields).Pairwise fun f g => f.1 < g.1 :=
  Std.TreeMap.ordered_keys_toList.imp compare_lt_iff_lt.1

/-- The fields of an object in a canonical form were sorted. -/
theorem sorted_of_canonical {v : Json} {path : List Step} {fields : List (String × Json)}
    (here : v.canonical.at? path = some (.object fields)) : fields.Pairwise fun f g => f.1 < g.1 := by
  rw [at?_canonical] at here
  obtain ⟨w, -, eq⟩ := Option.map_eq_some_iff.1 here
  cases w with
  | object fields' =>
    rw [canonical_object] at eq
    exact Json.object.inj eq ▸ sortFields_sorted _
  | array items => rw [canonical_array] at eq; cases eq
  | _ => cases eq

/-- **The canonical form of a value** decides which values are the same.

Its text is the text of another canonical form just if the two values are the same: just if one of them is the other
with the fields of its objects put in another order at every depth, where no object has two fields of one name. In it
the names of the fields of every object are in strictly increasing order of their bytes; every path leads to the
scalar to which it leads in the value, to an array, to an object or nowhere, as it does there; the items of an array
keep their order; and it is its own canonical form. -/
theorem canonical_form_decides (v w : Json) :
    (v.canonical.render = w.canonical.render ↔ v.Same w) ∧
    (v.Distinct → w.Distinct → (v.canonical.render = w.canonical.render ↔ v.Reordered w)) ∧
    (∀ path fields, v.canonical.at? path = some (.object fields) →
      fields.Pairwise fun f g => (Text.encode f.1).toList < (Text.encode g.1).toList) ∧
    (∀ path, (v.canonical.at? path).map shell = (v.at? path).map shell) ∧
    (∀ path items, v.at? path = some (.array items) →
      v.canonical.at? path = some (.array (items.map canonical))) ∧
    v.canonical.canonical = v.canonical := by
  refine ⟨canonical_text_iff, fun distinct distinct' => ?_, fun path fields here => ?_, fun path => ?_, ?_, ?_⟩
  · rw [canonical_text_iff, same_iff_reordered distinct distinct']
  · exact (sorted_of_canonical here).imp Text.encode_lt_iff.2
  · exact (same_canonical v path).symm
  · intro path items here
    rw [at?_canonical, here, Option.map_some, canonical_array]
  · exact (same_canonical v).canonical_eq.symm

/-- Fields in another order, inside and outside, have one text; items in another order have another one. -/
theorem canonical_form_decides_nested : ∃ v w x : Json, v.Distinct ∧ w.Distinct ∧ x.Distinct ∧
    v.render ≠ w.render ∧ v.canonical.render = w.canonical.render ∧
    w.canonical.render = "\x7b\"z\":[2,10],\"é\":\x7b\"a\":\"\\\"\",\"b\":null\x7d\x7d" ∧ ¬ v.Reordered x := by
  let inner : Json := .object [("b", .null), ("a", .string "\"")]
  let inner' : Json := .object [("a", .string "\""), ("b", .null)]
  let v : Json := .object [("z", .array [.ofNat 2, .ofNat 10]), ("é", inner)]
  let w : Json := .object [("é", inner'), ("z", .array [.ofNat 2, .ofNat 10])]
  let x : Json := .object [("z", .array [.ofNat 10, .ofNat 2]), ("é", inner)]
  have leaf {v : Json} : v = .null ∨ (∃ n, v = .ofNat n) ∨ (∃ s, v = .string s) → v.Distinct := by
    rintro (rfl | ⟨n, rfl⟩ | ⟨s, rfl⟩) <;> exact .scalar (fun step => by cases step <;> rfl) nofun
  have numbers (m n : Nat) : (Json.array [.ofNat m, .ofNat n]).Distinct := .array (by simp [leaf])
  have inside : inner.Distinct := .object (by decide) (by simp [leaf])
  have inside' : inner'.Distinct := .object (by decide) (by simp [leaf])
  have dv : v.Distinct := .object (by decide) (by simp [numbers, inside])
  have dw : w.Distinct := .object (by decide) (by simp [numbers, inside'])
  have dx : x.Distinct := .object (by decide) (by simp [numbers, inside])
  have swapped : inner.Reordered inner' :=
    .object rfl (.cons (.refl _) (.cons (.refl _) .nil)) (.swap ..)
  have reordered : v.Reordered w :=
    @Reordered.object _ [("z", .array [.ofNat 2, .ofNat 10]), ("é", inner')] _ rfl
      (.cons (.refl _) (.cons swapped .nil)) (.swap ..)
  have same := ((canonical_form_decides v w).2.1 dv dw).2 reordered
  refine ⟨v, w, x, dv, dw, dx, by decide +kernel, same, by decide +kernel, fun other => ?_⟩
  exact absurd (((canonical_form_decides v x).2.1 dv dx).2 other) (by decide +kernel)

end ResponseCache.Json
