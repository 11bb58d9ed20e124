import ResponseCache.Proofs.Key.Injective

/-!
# What does not change a key

A key is made of what its rule selects, and of nothing else. A section of pairs depends on which pairs are selected
and how often, not on their order (`pairSection_congr`): the groups of a name hold the same values, and several values
are sorted. A section of a body depends on the value up to the order of fields (`bodySection_congr`), since it is
written in canonical form. So requests that agree on what is selected have one key (`build_congr`).
-/

namespace ResponseCache.KeyRule

open Json

/-! ## Pairs -/

theorem groupValue_congr {values values' : List String} (perm : values.Perm values') :
    groupValue values = groupValue values' := by
  have sorted : ∀ values : List String, (values.mergeSort fun a b => decide (a ≤ b)).Pairwise (· ≤ ·) := by
    intro values
    refine (List.pairwise_mergeSort ?_ ?_ values).imp of_decide_eq_true
    · exact fun a b c le le' => decide_eq_true (String.le_trans (of_decide_eq_true le) (of_decide_eq_true le'))
    · exact fun a b => by simpa using String.le_total a b
  have same : (values.mergeSort fun a b => decide (a ≤ b)) = values'.mergeSort fun a b => decide (a ≤ b) :=
    ((List.mergeSort_perm ..).trans (perm.trans (List.mergeSort_perm ..).symm)).eq_of_pairwise
      (fun a b _ _ => String.le_antisymm) (sorted _) (sorted _)
  unfold groupValue
  split
  · obtain rfl := List.singleton_perm.1 perm
    rfl
  · next several =>
    split
    · next value => exact (several value (List.perm_singleton.1 perm)).elim
    · rw [same]

/-- **A section of pairs** depends on the selected pairs, not on their order. -/
theorem pairSection_congr {fold : String → String} {selection : Selection} {pairs pairs' : List (String × String)}
    (perm : (selected fold selection pairs).Perm (selected fold selection pairs')) :
    pairSection fold selection pairs = pairSection fold selection pairs' := by
  rw [pairSection_eq, pairSection_eq, perm.isEmpty_eq]
  generalize selected fold selection pairs = chosen at perm ⊢
  generalize selected fold selection pairs' = chosen' at perm ⊢
  have groups : ((grouped id chosen).toList.map fun p => (p.1, groupValue p.2)) =
      (grouped id chosen').toList.map fun p => (p.1, groupValue p.2) := by
    rw [← Std.TreeMap.toList_map (f := fun _ => groupValue), ← Std.TreeMap.toList_map (f := fun _ => groupValue)]
    refine (Std.TreeMap.Equiv.of_forall_constGet?_eq fun name => ?_).toList_eq
    have values : (valuesOf id name chosen).Perm (valuesOf id name chosen') := (perm.filter _).map _
    rw [Std.TreeMap.getElem?_map, Std.TreeMap.getElem?_map, getElem?_grouped, getElem?_grouped, values.isEmpty_eq]
    split
    · rfl
    · exact congrArg some (groupValue_congr ((List.reverse_perm _).trans (values.trans (List.reverse_perm _).symm)))
  rw [groups]

/-! ## Bodies -/

theorem void_of_same {v w : Json} (same : v.Same w) (void : v.Void) : w.Void := by
  cases void with
  | null => cases w <;> first | exact .null | cases same.shell_eq
  | object =>
    cases w with
    | object fields =>
      cases fields with
      | nil => exact .object
      | cons f fields =>
        have last : Option.Rel Same none (last? f.1 (f :: fields)) := Same.child same (.field f.1)
        cases here : last? f.1 (f :: fields) with
        | none => exact (ne_of_last?_eq_none here List.mem_cons_self rfl).elim
        | some v =>
          rw [here] at last
          cases last
    | _ => cases same.shell_eq

/-- **A section of a body** depends on the selected part of it, up to the order of fields. -/
theorem bodySection_congr {selection : Selection} {body body' : Option Json}
    (same : (selectedBody selection body).Same (selectedBody selection body')) :
    bodySection selection body = bodySection selection body' := by
  by_cases void : (selectedBody selection body).Void
  · rw [bodySection_of_void void, bodySection_of_void (void_of_same same void)]
  · rw [bodySection_of_not_void void, bodySection_of_not_void fun void' => void (void_of_same same.symm void'),
      same.canonical_eq]

/-- Two requests have the same body as far as a selection goes: no matter which where none is selected; one of the
same bytes and of the same value where all of it is; and objects with the same values in the named fields where these
are. -/
def SameBody (r r' : KeyRequest) : Selection → Prop
  | .exclude => True
  | .all => r.rawBody = r'.rawBody ∧ Option.Rel Json.Same r.body r'.body
  | .only names => ∃ fields fields', r.body = some (.object fields) ∧ r'.body = some (.object fields') ∧
      ∀ name ∈ names, Option.Rel Json.Same (last? name fields) (last? name fields')

namespace SameBody

variable {r r' : KeyRequest} {selection : Selection} (same : SameBody r r' selection)
include same

theorem selectedBody : (selectedBody selection r.body).Same (selectedBody selection r'.body) := by
  cases selection with
  | exclude => exact .refl _
  | all =>
    obtain ⟨-, body⟩ := same
    generalize r.body = b at body ⊢
    generalize r'.body = b' at body ⊢
    cases body with
    | none => exact .refl _
    | some same => exact same
  | only names =>
    obtain ⟨fields, fields', is, is', all⟩ := same
    rw [is, is']
    refine .of_children rfl fun step => ?_
    cases step with
    | item i => exact .none
    | field name =>
      show Option.Rel Same (last? name _) (last? name _)
      rw [last?_filter, last?_filter]
      split
      · next mem => exact all name mem
      · exact .none

theorem selectedRaw : selectedRaw selection r.rawBody = selectedRaw selection r'.rawBody := by
  cases selection with
  | all => rw [same.1]
  | _ => rfl

end SameBody

/-! ## Keys -/

/-- **Requests that agree on what is selected** have one key. -/
theorem build_congr {rule : KeyRule} {start : String} {r r' : KeyRequest} (generated : rule.override = none)
    (method : r.method.toUpper = r'.method.toUpper) (route : r.route = r'.route)
    (params : (selected id rule.params r.params).Perm (selected id rule.params r'.params))
    (query : (selected id rule.query r.query).Perm (selected id rule.query r'.query))
    (headers : (selected String.toLower rule.headers r.headers).Perm (selected String.toLower rule.headers r'.headers))
    (body : SameBody r r' rule.body) : rule.build start r = rule.build start r' := by
  have all : rule.sections r = rule.sections r' := by
    rw [sections, sections, pairSection_congr params, pairSection_congr query, pairSection_congr headers,
      bodySection_congr body.selectedBody, rawSection_eq, rawSection_eq _ r'.rawBody, body.selectedRaw]
  rw [build, build, generated, method, route, all]

/-- Two requests that differ in the order of what is given, in the case of a header name and in what is not selected. -/
theorem build_congr_reordered : ∃ (rule : KeyRule) (r r' : KeyRequest), r.query ≠ r'.query ∧ r.headers ≠ r'.headers ∧
    r.body ≠ none ∧ rule.build "cache" r = rule.build "cache" r' := by
  let rule : KeyRule := { query := .only ["tag"], headers := .only ["Accept"], body := .only ["id", "at"] }
  let r : KeyRequest :=
    { method := "get", route := "/items", query := [("tag", "a"), ("page", "1"), ("tag", "b")],
      headers := [("ACCEPT", "text"), ("Host", "x")], body := some (.object [("id", .ofNat 7), ("at", .ofNat 9)]) }
  let r' : KeyRequest :=
    { method := "GET", route := "/items", query := [("tag", "b"), ("tag", "a"), ("page", "2")],
      headers := [("accept", "text")], body := some (.object [("at", .ofNat 9), ("to", .null), ("id", .ofNat 7)]) }
  have body : SameBody r r' rule.body := by
    refine ⟨_, _, rfl, rfl, ?_⟩
    simp [last?, List.lookup_cons, Same.refl]
  have method : "get".toUpper = "GET" ∧ "GET".toUpper = "GET" := by decide +kernel
  have headers : (selected String.toLower rule.headers r.headers).Perm
      (selected String.toLower rule.headers r'.headers) := by
    have folded : "Accept".toLower = "accept" ∧ "ACCEPT".toLower = "accept" ∧ "accept".toLower = "accept" ∧
      "Host".toLower = "host" := by decide +kernel
    simp [selected, Selection.includes, folded, rule, r, r']
  exact ⟨rule, r, r', by decide, by decide, Option.some_ne_none _,
    build_congr rfl (method.1.trans method.2.symm) rfl (by decide +kernel) (by decide +kernel) headers body⟩

end ResponseCache.KeyRule
