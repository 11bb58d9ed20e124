import Mathlib.Data.List.Forall2
import Mathlib.Data.List.Induction
import ResponseCache.Key.Sections
import ResponseCache.Proofs.Json.Text

/-!
# Keys tell what was selected

The sections of a key can be told apart: each begins with its own name, and its JSON tells where it ends
(`sections_cancel`). A section of pairs tells, for each name, which values the selected pairs of that name have, and
how often (`pairSection_perm`). So two requests of one route that have the same key agree on the values of everything
that is selected (`build_perm`).
-/

namespace ResponseCache.KeyRule

open Json

/-- The values that pairs have under a name, names being compared after `fold`. -/
def valuesOf (fold : String → String) (name : String) (pairs : List (String × String)) : List String :=
  (pairs.filter fun p => fold p.1 == fold name).map (·.2)

/-! ## Sections in a row -/

/-- The characters of a section. -/
def sectionChars : String × Option Json → List Char
  | (_, none) => []
  | (name, some json) => ':' :: (name.toList ++ '=' :: chars json)

theorem sectionText_toList (s : String × Option Json) : (sectionText s).toList = sectionChars s := by
  obtain ⟨name, _ | json⟩ := s
  · rfl
  · simp [sectionText, sectionChars, render_toList]

/-- A key without an override, as characters. -/
theorem build_toList {rule : KeyRule} (generated : rule.override = none) (start : String) (r : KeyRequest) :
    (rule.build start r).toList = start.toList ++ ':' :: (r.method.toUpper.toList ++ ':' :: (r.route.toList ++
      (rule.sections r).flatMap sectionChars)) := by
  have rows : ∀ (sections : List (String × Option Json)) (key : String),
      (sections.foldl (fun key s => key ++ sectionText s) key).toList =
        key.toList ++ sections.flatMap sectionChars := by
    intro sections
    induction sections with
    | nil => simp
    | cons s sections ih =>
      intro key
      rw [List.foldl_cons, ih, String.toList_append, sectionText_toList, List.flatMap_cons, List.append_assoc]
  rw [build, generated]
  exact (rows _ _).trans (by simp)

/-- Names that begin differently. -/
def Distinct (names : List String) : Prop :=
  names.Pairwise (fun a b => a.toList.head? ≠ b.toList.head?) ∧ ∀ name ∈ names, name ≠ ""

/-- What follows a section begins like another one of the names that follow, if it begins at all. -/
theorem flatMap_sectionChars_head (sections : List (String × Option Json)) :
    sections.flatMap sectionChars = [] ∨ ∃ name cs, name ∈ sections.map (·.1) ∧
      sections.flatMap sectionChars = ':' :: (name.toList ++ '=' :: cs) := by
  induction sections with
  | nil => exact .inl rfl
  | cons s sections ih =>
    obtain ⟨name, _ | json⟩ := s
    · exact ih.imp_right fun ⟨name, cs, mem, eq⟩ => ⟨name, cs, List.mem_cons_of_mem _ mem, eq⟩
    · refine .inr ⟨name, chars json ++ sections.flatMap sectionChars, List.mem_cons_self, ?_⟩
      simp [sectionChars]

theorem ends_flatMap_sectionChars (sections : List (String × Option Json)) : Ends (sections.flatMap sectionChars) := by
  rcases flatMap_sectionChars_head sections with eq | ⟨name, cs, -, eq⟩
  · rw [eq]
    exact fun c none => nomatch none
  · rw [eq]
    exact ends_cons (by decide)

/-- A section is not there in one row and missing in the other. -/
theorem section_not_missing {name : String} {json : Json} {sections rest : List (String × Option Json)}
    (distinct : Distinct (name :: rest.map (·.1))) :
    sectionChars (name, some json) ++ sections.flatMap sectionChars ≠ rest.flatMap sectionChars := by
  intro eq
  rcases flatMap_sectionChars_head rest with none | ⟨other, cs, mem, is⟩
  · rw [none] at eq
    cases eq
  · rw [is] at eq
    injection eq with _ eq
    refine (List.pairwise_cons.1 distinct.1).1 other mem ?_
    have some := distinct.2 name List.mem_cons_self
    have some' := distinct.2 other (List.mem_cons_of_mem _ mem)
    obtain ⟨c, n, hn⟩ := List.exists_cons_of_ne_nil fun nil => some (String.toList_inj.1 nil)
    obtain ⟨c', n', hn'⟩ := List.exists_cons_of_ne_nil fun nil => some' (String.toList_inj.1 nil)
    rw [hn, hn'] at eq
    injection eq with same
    rw [hn, hn', same]
    rfl

/-- **Sections in a row are told apart**, if their names begin differently. -/
theorem sections_cancel : ∀ {sections sections' : List (String × Option Json)},
    sections.map (·.1) = sections'.map (·.1) → Distinct (sections.map (·.1)) →
    sections.flatMap sectionChars = sections'.flatMap sectionChars →
    List.Forall₂ (fun s s' => s.2.map chars = s'.2.map chars) sections sections'
  | [], [], _, _, _ => .nil
  | (name, json) :: sections, (name', json') :: sections', names, distinct, eq => by
    injection names with same names
    dsimp only at same
    subst same
    have rest : Distinct (sections.map (·.1)) :=
      ⟨(List.pairwise_cons.1 distinct.1).2, fun name mem => distinct.2 name (List.mem_cons_of_mem _ mem)⟩
    rw [List.flatMap_cons, List.flatMap_cons] at eq
    cases json with
    | none =>
      cases json' with
      | none => exact .cons rfl (sections_cancel names rest eq)
      | some v => exact (section_not_missing distinct eq.symm).elim
    | some v =>
      cases json' with
      | none => exact (section_not_missing (names ▸ distinct) eq).elim
      | some v' =>
        injection eq with _ eq
        simp only [List.append_eq, List.append_assoc, List.cons_append] at eq
        injection List.append_cancel_left eq with _ eq
        obtain ⟨value, eq⟩ := chars_cancel (ends_flatMap_sectionChars _) (ends_flatMap_sectionChars _) v v' eq
        exact .cons (congrArg some value) (sections_cancel names rest eq)

/-! ## Sections of pairs -/

/-- The text of the values of a name tells the values, in whatever order they came. -/
theorem groupValue_perm {values values' : List String}
    (eq : chars (groupValue values) = chars (groupValue values')) : values.Perm values' := by
  have several : ∀ {values values' : List String},
      chars (.array ((values.mergeSort fun a b => decide (a ≤ b)).map .string)) =
        chars (.array ((values'.mergeSort fun a b => decide (a ≤ b)).map .string)) → values.Perm values' := by
    intro values values' eq
    have same := chars_array eq
    rw [List.forall₂_map_left_iff, List.forall₂_map_right_iff] at same
    have same := List.forall₂_eq_eq_eq ▸ same.imp fun _ _ eq => chars_string eq
    have sorted := List.mergeSort_perm values fun a b => decide (a ≤ b)
    rw [same] at sorted
    exact sorted.symm.trans (List.mergeSort_perm values' _)
  unfold groupValue at eq
  split at eq <;> split at eq
  · rw [chars_string eq]
  · cases eq
  · cases eq
  · exact several eq

/-- **A group** holds the values of its name, the latest one first. -/
theorem getElem?_grouped (pairs : List (String × String)) (name : String) : (grouped id pairs)[name]? =
    if (valuesOf id name pairs).isEmpty then none else some (valuesOf id name pairs).reverse := by
  induction pairs using List.reverseRecOn with
  | nil => rfl
  | append_singleton pairs p ih =>
    obtain ⟨other, value⟩ := p
    have values : valuesOf id name (pairs ++ [(other, value)]) =
        valuesOf id name pairs ++ if other = name then [value] else [] := by
      rw [valuesOf, valuesOf, List.filter_append, List.map_append]
      by_cases same : other = name <;> simp [same]
    rw [grouped, List.foldl_append, ← grouped, List.foldl_cons, List.foldl_nil, Std.TreeMap.getElem?_insert, ih, values,
      id]
    by_cases same : other = name
    · subst same
      rw [if_pos (Std.compare_eq_iff_eq.2 rfl), if_pos rfl, if_neg (by simp), Std.TreeMap.getD_eq_getD_getElem?, ih]
      split
      · next none => simp [List.isEmpty_iff.1 none]
      · simp
    · rw [if_neg fun eq => same (Std.compare_eq_iff_eq.1 eq), if_neg same, List.append_nil]

theorem getD_grouped (pairs : List (String × String)) (name : String) :
    (grouped id pairs).getD name [] = (valuesOf id name pairs).reverse := by
  rw [Std.TreeMap.getD_eq_getD_getElem?, getElem?_grouped]
  split
  · next none => rw [List.isEmpty_iff.1 none]; rfl
  · rfl

/-- A field has its counterpart among fields that match one by one. -/
theorem exists_counterpart {fields fields' : List (String × List String)}
    (all : List.Forall₂ (fun f g => f.1 = g.1 ∧ f.2.Perm g.2) fields fields') {name : String} {values : List String}
    (mem : (name, values) ∈ fields) : ∃ values', (name, values') ∈ fields' ∧ values.Perm values' := by
  induction all with
  | nil => cases mem
  | cons here _ ih =>
    rcases List.mem_cons.1 mem with rfl | mem
    · obtain ⟨rfl, perm⟩ := here
      exact ⟨_, List.mem_cons_self, perm⟩
    · obtain ⟨values', mem', perm⟩ := ih mem
      exact ⟨values', List.mem_cons_of_mem _ mem', perm⟩

/-- Groups whose fields match one by one have the same values under every name. -/
theorem getD_perm {groups groups' : Std.TreeMap String (List String)}
    (all : List.Forall₂ (fun f g => f.1 = g.1 ∧ f.2.Perm g.2) groups.toList groups'.toList) (name : String) :
    (groups.getD name []).Perm (groups'.getD name []) := by
  have flipped : List.Forall₂ (fun f g => f.1 = g.1 ∧ f.2.Perm g.2) groups'.toList groups.toList :=
    (all.imp fun _ _ h => (⟨h.1.symm, h.2.symm⟩ : _ ∧ _)).flip
  rw [Std.TreeMap.getD_eq_getD_getElem?, Std.TreeMap.getD_eq_getD_getElem?]
  cases here : groups[name]? with
  | some values =>
    obtain ⟨values', mem, perm⟩ := exists_counterpart all (Std.TreeMap.mem_toList_iff_getElem?_eq_some.2 here)
    rw [Std.TreeMap.mem_toList_iff_getElem?_eq_some.1 mem]
    exact perm
  | none =>
    cases there : groups'[name]? with
    | none => exact .refl _
    | some values' =>
      obtain ⟨values, mem, -⟩ := exists_counterpart flipped (Std.TreeMap.mem_toList_iff_getElem?_eq_some.2 there)
      cases here.symm.trans (Std.TreeMap.mem_toList_iff_getElem?_eq_some.1 mem)

/-- Pairs are known, but for their order, by the values under each name. -/
theorem perm_of_valuesOf {pairs pairs' : List (String × String)}
    (all : ∀ name, (valuesOf id name pairs).Perm (valuesOf id name pairs')) : pairs.Perm pairs' := by
  have count : ∀ (pairs : List (String × String)) (name value : String),
      pairs.count (name, value) = (valuesOf id name pairs).count value := by
    intro pairs name value
    rw [valuesOf, List.count, List.count, List.countP_map, List.countP_filter]
    refine List.countP_congr fun p _ => ?_
    simp [Prod.ext_iff, and_comm]
  refine List.perm_iff_count.2 fun ⟨name, value⟩ => ?_
  rw [count, count]
  exact (all name).count_eq value

/-- The pairs of selected names, names taken after `fold`. -/
def selected (fold : String → String) (selection : Selection) (pairs : List (String × String)) :
    List (String × String) :=
  (pairs.filter fun p => selection.includes fold p.1).map fun p => (fold p.1, p.2)

section Selected

variable {fold : String → String} {selection : Selection}

/-- **A section of pairs** is a matter of the selected pairs. -/
theorem pairSection_eq (pairs : List (String × String)) : pairSection fold selection pairs =
    if (selected fold selection pairs).isEmpty then none
    else some (.object ((grouped id (selected fold selection pairs)).toList.map fun p => (p.1, groupValue p.2))) := by
  rw [pairSection, selected, List.isEmpty_map, grouped, grouped, List.foldl_map]
  rfl

/-- A name that is selected is so in all of its forms. -/
theorem includes_fold (selection : Selection) {name other : String} (same : fold other = fold name) :
    selection.includes fold other = selection.includes fold name := by
  cases selection with
  | only names => simp [Selection.includes, same]
  | _ => rfl

/-- The pairs of a selected name are all selected. -/
theorem valuesOf_selected {name : String} (includes : selection.includes fold name = true)
    (pairs : List (String × String)) :
    valuesOf id (fold name) (selected fold selection pairs) = valuesOf fold name pairs := by
  rw [valuesOf, selected, List.filter_map, List.filter_filter, List.map_map, valuesOf]
  refine congrArg (List.map _) (List.filter_congr fun p _ => ?_)
  by_cases same : fold p.1 = fold name
  · simp [same, includes_fold selection same, includes]
  · simp [same]

/-- **A section of pairs** tells which pairs are selected, and how often each. -/
theorem selected_perm {selection' : Selection} {pairs pairs' : List (String × String)}
    (eq : (pairSection fold selection pairs).map chars = (pairSection fold selection' pairs').map chars) :
    (selected fold selection pairs).Perm (selected fold selection' pairs') := by
  rw [pairSection_eq, pairSection_eq] at eq
  split at eq
  · next none =>
    split at eq
    · next none' => rw [List.isEmpty_iff.1 none, List.isEmpty_iff.1 none']
    · cases eq
  · split at eq
    · cases eq
    · injection eq with eq
      have fields := chars_object eq
      rw [List.forall₂_map_left_iff, List.forall₂_map_right_iff] at fields
      refine perm_of_valuesOf fun name => ?_
      have perm := getD_perm (fields.imp fun _ _ same => ⟨same.1, groupValue_perm same.2⟩) name
      rw [getD_grouped, getD_grouped] at perm
      exact (List.reverse_perm _).symm.trans (perm.trans (List.reverse_perm _))

/-- So it tells the values of each selected name. -/
theorem pairSection_perm {pairs pairs' : List (String × String)}
    (eq : (pairSection fold selection pairs).map chars = (pairSection fold selection pairs').map chars) {name : String}
    (includes : selection.includes fold name = true) : (valuesOf fold name pairs).Perm (valuesOf fold name pairs') := by
  rw [← valuesOf_selected includes, ← valuesOf_selected includes pairs']
  exact ((selected_perm eq).filter _).map _

end Selected

/-! ## Keys -/

/-- The sections of a key, in order. -/
def sectionNames : List String := ["params", "query", "body", "raw", "headers"]

theorem sections_names (rule : KeyRule) (r : KeyRequest) : (rule.sections r).map (·.1) = sectionNames := rfl

theorem distinct_sectionNames : Distinct sectionNames := ⟨by decide, by decide⟩

/-- **Keys with the same method and route** have the same sections. -/
theorem sections_of_build {rule rule' : KeyRule} (generated : rule.override = none) (generated' : rule'.override = none)
    {start : String} {r r' : KeyRequest} (method : r.method.toUpper = r'.method.toUpper) (route : r.route = r'.route)
    (eq : rule.build start r = rule'.build start r') :
    List.Forall₂ (fun s s' => s.2.map chars = s'.2.map chars) (rule.sections r) (rule'.sections r') := by
  have eq := congrArg String.toList eq
  rw [build_toList generated, build_toList generated', method, route] at eq
  injection List.append_cancel_left eq with _ eq
  injection List.append_cancel_left eq with _ eq
  refine sections_cancel ?_ ?_ (List.append_cancel_left eq)
  · rw [sections_names, sections_names]
  · exact distinct_sectionNames

/-- **Requests of one route with the same key** agree on the values of everything that is selected. -/
theorem build_perm {rule : KeyRule} (generated : rule.override = none) {start : String} {r r' : KeyRequest}
    (method : r.method = r'.method) (route : r.route = r'.route) (eq : rule.build start r = rule.build start r') :
    (∀ name, rule.params.includes id name = true → (valuesOf id name r.params).Perm (valuesOf id name r'.params)) ∧
      (∀ name, rule.query.includes id name = true → (valuesOf id name r.query).Perm (valuesOf id name r'.query)) ∧
      ∀ name, rule.headers.includes String.toLower name = true →
        (valuesOf String.toLower name r.headers).Perm (valuesOf String.toLower name r'.headers) := by
  have all := sections_of_build generated generated (congrArg _ method) route eq
  simp only [sections, List.forall₂_cons] at all
  obtain ⟨params, query, -, -, headers, -⟩ := all
  exact ⟨fun name => pairSection_perm params, fun name => pairSection_perm query, fun name => pairSection_perm headers⟩

end ResponseCache.KeyRule
