import Mathlib.Data.List.Infix
import ResponseCache.Proofs.Json.Number
import ResponseCache.Proofs.Key.Sections
import ResponseCache.Proofs.Text.Utf8

/-!
# Keys are injective

A key is a row of parts that nothing separates but colons. Still, where the method has no colon and the route does not
contain the beginning of a section, the parts can be read off the key one after the other: the method ends at a colon
(`method_cancel`), the route where the first section begins (`route_cancel`), and the sections tell where they end.
What a section tells is all that its rule selects: the pairs (`selected_perm`), the body up to the order of fields
(`selectedBody_alike`) and the bytes of a body that is no JSON (`selectedRaw_eq`). So requests with one key agree on
all that is selected, even where the keys are those of different rules (`build_injective`).
-/

namespace ResponseCache

/-! ## What is selected of a body -/

namespace Json

/-- What counts as no body. -/
inductive Void : Json → Prop
  | null : Void .null
  | object : Void (.object [])

/-- The same value up to the order of fields, where null and the empty object are the same. -/
def Alike (v w : Json) : Prop := v.Same w ∨ v.Void ∧ w.Void

end Json

namespace KeyRule

open Json

/-- The selected part of a body: the whole of it, or of an object the fields of the given names. What is not there is
null. -/
def selectedBody : Selection → Option Json → Json
  | .all, some body => body
  | .only names, some (.object fields) => .object (fields.filter fun f => f.1 ∈ names)
  | _, _ => .null

/-- The bytes of a body that is no JSON, where the whole body is selected. -/
def selectedRaw : Selection → Option ByteArray → ByteArray
  | .all, some bytes => bytes
  | _, _ => .empty

theorem getD_selectBody (selection : Selection) (body : Option Json) :
    (body.bind (selectBody selection)).getD .null = selectedBody selection body := by
  cases body with
  | none => cases selection <;> rfl
  | some v =>
    cases selection with
    | exclude => rfl
    | all => rfl
    | only names =>
      cases v with
      | object fields =>
        refine congrArg Json.object (List.filter_congr fun f _ => ?_)
        rw [Bool.eq_iff_iff, decide_eq_true_iff, Selection.includes, List.any_eq_true]
        refine ⟨?_, fun mem => ⟨_, mem, beq_self_eq_true _⟩⟩
        rintro ⟨name, mem, eq⟩
        exact (eq_of_beq eq : name = f.1) ▸ mem
      | _ => rfl

section Bodies

variable {selection selection' : Selection} {body body' : Option Json}

/-- **Null and the empty object** have no section. -/
theorem bodySection_of_void (void : (selectedBody selection body).Void) : bodySection selection body = none := by
  unfold bodySection
  rw [← getD_selectBody] at void
  cases part : body.bind (selectBody selection) with
  | none => rfl
  | some v =>
    rw [part] at void
    cases void <;> rfl

/-- **Every other body** has the section of its canonical form. -/
theorem bodySection_of_not_void (void : ¬ (selectedBody selection body).Void) :
    bodySection selection body = some (selectedBody selection body).canonical := by
  unfold bodySection
  rw [← getD_selectBody] at void ⊢
  cases part : body.bind (selectBody selection) with
  | none => exact (void (part ▸ .null)).elim
  | some v =>
    rw [part] at void
    split
    · contradiction
    · next eq => cases eq; exact (void .null).elim
    · next eq => cases eq; exact (void .object).elim
    · next eq => cases eq; rfl

theorem last?_filter (names : List String) (name : String) (fields : List (String × Json)) :
    last? name (fields.filter fun f => f.1 ∈ names) = if name ∈ names then last? name fields else none := by
  induction fields using List.reverseRecOn with
  | nil => split <;> rfl
  | append_singleton fields f ih =>
    rw [List.filter_append, List.filter_cons, List.filter_nil, last?_append]
    by_cases here : f.1 ∈ names
    · rw [if_pos (decide_eq_true here), last?_append, ih]
      split
      · next eq => rw [if_pos (eq ▸ here)]
      · rfl
    · rw [if_neg (by simpa using here), List.append_nil, ih]
      split
      · next mem => rw [if_neg fun eq : name = f.1 => here (eq ▸ mem)]
      · rfl

/-- **The section of a body** tells the selected part of the body. -/
theorem selectedBody_alike (eq : (bodySection selection body).map chars = (bodySection selection' body').map chars) :
    (selectedBody selection body).Alike (selectedBody selection' body') := by
  by_cases void : (selectedBody selection body).Void <;> by_cases void' : (selectedBody selection' body').Void
  · exact .inr ⟨void, void'⟩
  · rw [bodySection_of_void void, bodySection_of_not_void void'] at eq
    cases eq
  · rw [bodySection_of_not_void void, bodySection_of_void void'] at eq
    cases eq
  · rw [bodySection_of_not_void void, bodySection_of_not_void void'] at eq
    refine .inl (canonical_text_iff.1 (String.toList_inj.1 ?_))
    rw [render_toList, render_toList]
    exact Option.some.inj eq

end Bodies

/-! ## Bytes -/

theorem bytes_of_chars {bytes bytes' : List UInt8}
    (eq : chars (.array (bytes.map fun b => .ofNat b.toNat)) = chars (.array (bytes'.map fun b => .ofNat b.toNat))) :
    bytes = bytes' := by
  have same := chars_array eq
  rw [List.forall₂_map_left_iff, List.forall₂_map_right_iff] at same
  refine List.forall₂_eq_eq_eq ▸ same.imp fun b b' eq => ?_
  exact UInt8.toNat_inj.1 (Int.ofNat_inj.1 (Number.intText_inj eq))

/-- The section of a body that is no JSON is a matter of the bytes that are selected. -/
theorem rawSection_eq (selection : Selection) (raw : Option ByteArray) :
    rawSection selection raw = rawSection .all (some (selectedRaw selection raw)) := by
  unfold selectedRaw
  split
  · rfl
  · next other =>
    unfold rawSection
    split
    · exact (other _ rfl rfl).elim
    · rfl

/-- What a section tells of the bytes that it is made of. -/
theorem rawSection_cases (bytes : ByteArray) :
    rawSection .all (some bytes) = none ∧ bytes = .empty ∨
      (∃ text, rawSection .all (some bytes) = some (.string text) ∧ Text.encode text = bytes) ∨
      rawSection .all (some bytes) = some (.array (bytes.toList.map fun b => .ofNat b.toNat)) := by
  unfold rawSection
  dsimp only
  split
  · next empty => exact .inl ⟨rfl, ByteArray.size_eq_zero_iff.1 (eq_of_beq empty)⟩
  · split
    · next text read => exact .inr (.inl ⟨text, rfl, Text.decode?_eq_some_iff.1 read⟩)
    · exact .inr (.inr rfl)

/-- **The section of a body that is no JSON** tells its bytes. -/
theorem selectedRaw_eq {selection selection' : Selection} {raw raw' : Option ByteArray}
    (eq : (rawSection selection raw).map chars = (rawSection selection' raw').map chars) :
    selectedRaw selection raw = selectedRaw selection' raw' := by
  rw [rawSection_eq, rawSection_eq selection' raw'] at eq
  obtain ⟨is, empty⟩ | ⟨text, is, encodes⟩ | is := rawSection_cases (selectedRaw selection raw) <;>
    obtain ⟨is', empty'⟩ | ⟨text', is', encodes'⟩ | is' := rawSection_cases (selectedRaw selection' raw') <;>
    rw [is, is'] at eq
  · rw [empty, empty']
  · cases eq
  · cases eq
  · cases eq
  · rw [← encodes, ← encodes', chars_string (Option.some.inj eq)]
  · cases eq
  · cases eq
  · cases eq
  · exact Bytes.toList_inj.1 (bytes_of_chars (Option.some.inj eq))

/-! ## Where the parts of a key end -/

theorem toUpper_ne_colon {c : Char} (other : c ≠ ':') : c.toUpper ≠ ':' := by
  unfold Char.toUpper
  split
  · next small =>
    intro is
    have lowered := congrArg Char.val is
    dsimp only at lowered
    rw [show 'A'.val - 'a'.val = 4294967264 by decide, show ':'.val = 58 by decide] at lowered
    rw [show 'a'.val = 97 by decide, show 'z'.val = 122 by decide] at small
    grind
  · exact other

theorem colon_not_mem_toUpper {method : String} (plain : ':' ∉ method.toList) : ':' ∉ method.toUpper.toList := by
  show ':' ∉ (method.map Char.toUpper).toList
  rw [String.toList_map, List.mem_map]
  rintro ⟨c, mem, is⟩
  exact toUpper_ne_colon (fun colon => plain (colon ▸ mem)) is

/-- **The method** ends at the first colon. -/
theorem method_cancel {a b x y : List Char} (plain : ':' ∉ a) (plain' : ':' ∉ b) (eq : a ++ ':' :: x = b ++ ':' :: y) :
    a = b ∧ x = y := by
  have ends : ∀ {a x : List Char}, ':' ∉ a → (a ++ ':' :: x).takeWhile (· != ':') = a := by
    intro a x plain
    rw [List.takeWhile_append_of_pos fun c mem => by simpa using fun is : c = ':' => plain (is ▸ mem),
      List.takeWhile_cons_of_neg (by simp), List.append_nil]
  have same : a = b := (ends plain).symm.trans (eq ▸ ends plain')
  subst same
  injection List.append_cancel_left eq with _ eq
  exact ⟨rfl, eq⟩

/-- What a section begins with. -/
def mark (name : String) : String := ":" ++ name ++ "="

theorem mark_toList (name : String) : (mark name).toList = ':' :: (name.toList ++ ['=']) := by
  simp [mark]

/-- The characters that stand between a route without the mark of a section and the next sections are none: sections
begin with a mark, and no two of them overlap. -/
theorem route_ends {route x : List Char} {sections sections' : List (String × Option Json)}
    (colons : ∀ name ∈ sections.map (·.1), ':' ∉ name.toList)
    (plain : ∀ name ∈ sections.map (·.1), ¬ (mark name).toList <:+: route ++ x)
    (eq : sections.flatMap sectionChars = x ++ sections'.flatMap sectionChars) : x = [] := by
  rcases flatMap_sectionChars_head sections with none | ⟨name, cs, mem, is⟩
  · rw [none] at eq
    exact (List.append_eq_nil_iff.1 eq.symm).1
  by_contra some
  have whole : ∀ y, x ≠ (mark name).toList ++ y := by
    rintro y rfl
    exact plain name mem ⟨route, y, by simp⟩
  have eq : (mark name).toList ++ cs = x ++ sections'.flatMap sectionChars := by
    rw [← eq, is, mark_toList]
    simp
  obtain ⟨y, long, -⟩ | ⟨y, short, rest⟩ := List.append_eq_append_iff.1 eq
  · exact whole y long
  -- `x` is the beginning of a mark, so what is left of the mark would have to begin a section
  have left : y ≠ [] := by
    rintro rfl
    exact whole [] (by simpa using short.symm)
  obtain ⟨c, x', rfl⟩ := List.exists_cons_of_ne_nil some
  rw [mark_toList] at short
  injection short with _ short
  have colon : ':' ∈ y := by
    obtain ⟨c, y', rfl⟩ := List.exists_cons_of_ne_nil left
    rcases flatMap_sectionChars_head sections' with none | ⟨_, _, -, is⟩
    · rw [none] at rest
      cases rest
    · rw [is] at rest
      injection rest with head
      exact head ▸ List.mem_cons_self
  have colon : ':' ∈ name.toList ++ ['='] := short ▸ List.mem_append_right _ colon
  exact colons name mem (by simpa using colon)

/-- **The route** ends where the first section begins. -/
theorem route_cancel {route route' : List Char} {sections sections' : List (String × Option Json)}
    (colons : ∀ name ∈ sections.map (·.1), ':' ∉ name.toList)
    (names : sections.map (·.1) = sections'.map (·.1))
    (plain : ∀ name ∈ sections.map (·.1), ¬ (mark name).toList <:+: route)
    (plain' : ∀ name ∈ sections.map (·.1), ¬ (mark name).toList <:+: route')
    (eq : route ++ sections.flatMap sectionChars = route' ++ sections'.flatMap sectionChars) : route = route' := by
  obtain ⟨x, rfl, rest⟩ | ⟨x, rfl, rest⟩ := List.append_eq_append_iff.1 eq
  · rw [route_ends colons plain' rest, List.append_nil]
  · rw [names] at colons plain
    rw [route_ends colons plain rest, List.append_nil]

/-! ## Keys -/

/-- A request whose method and route can be read off a key. -/
structure Plain (r : KeyRequest) : Prop where
  method : ':' ∉ r.method.toList
  route : ∀ mark ∈ [":params=", ":query=", ":body=", ":raw=", ":headers="], ¬ mark.toList <:+: r.route.toList

/-- Two requests agree on what their rules select. -/
structure Agree (rule rule' : KeyRule) (r r' : KeyRequest) : Prop where
  /-- The methods are equal but for the case of letters. -/
  method : r.method.toUpper = r'.method.toUpper
  route : r.route = r'.route
  params : (selected id rule.params r.params).Perm (selected id rule'.params r'.params)
  query : (selected id rule.query r.query).Perm (selected id rule'.query r'.query)
  headers : (selected String.toLower rule.headers r.headers).Perm (selected String.toLower rule'.headers r'.headers)
  body : (selectedBody rule.body r.body).Alike (selectedBody rule'.body r'.body)
  raw : selectedRaw rule.body r.rawBody = selectedRaw rule'.body r'.rawBody

theorem Plain.unmarked {r : KeyRequest} (plain : Plain r) :
    ∀ name ∈ sectionNames, ¬ (mark name).toList <:+: r.route.toList := by
  intro name mem
  refine plain.route (mark name) ?_
  revert name
  decide

/-- **Requests with one key agree** on all that their rules select, be the rules the same or not, and whether or not
they can key the requests. -/
theorem build_injective {rule rule' : KeyRule} {start : String} {r r' : KeyRequest} (generated : rule.override = none)
    (generated' : rule'.override = none) (plain : Plain r) (plain' : Plain r')
    (eq : rule.build start r = rule'.build start r') : Agree rule rule' r r' := by
  have chars := congrArg String.toList eq
  rw [build_toList generated, build_toList generated'] at chars
  injection List.append_cancel_left chars with _ chars
  obtain ⟨method, chars⟩ :=
    method_cancel (colon_not_mem_toUpper plain.method) (colon_not_mem_toUpper plain'.method) chars
  have method := String.toList_inj.1 method
  have route : r.route = r'.route := by
    refine String.toList_inj.1 (route_cancel ?_ ?_ ?_ ?_ chars)
    · rw [sections_names]
      decide
    · rw [sections_names, sections_names]
    · rw [sections_names]
      exact plain.unmarked
    · rw [sections_names]
      exact plain'.unmarked
  have all := sections_of_build generated generated' method route eq
  simp only [sections, List.forall₂_cons] at all
  obtain ⟨params, query, body, raw, headers, -⟩ := all
  exact ⟨method, route, selected_perm params, selected_perm query, selected_perm headers,
    selectedBody_alike body, selectedRaw_eq raw⟩

/-- Two rules give two requests one key: one takes the whole body and one query name, the other one field and all
names. -/
theorem build_injective_two_rules : ∃ (rule rule' : KeyRule) (r r' : KeyRequest), rule.body ≠ rule'.body ∧ Plain r ∧
    Plain r' ∧ rule.build "cache" r = rule'.build "cache" r' ∧ Agree rule rule' r r' := by
  let rule : KeyRule := { body := .all, query := .only ["page"] }
  let rule' : KeyRule := { body := .only ["id"], query := .all }
  let r : KeyRequest :=
    { method := "post", route := "/items/:id", query := [("page", "1"), ("sort", "up")],
      body := some (.object [("id", .ofNat 7)]) }
  let r' : KeyRequest :=
    { method := "POST", route := "/items/:id", query := [("page", "1")],
      body := some (.object [("at", .ofNat 9), ("id", .ofNat 7)]) }
  have plain : Plain r := ⟨by decide, by decide +kernel⟩
  have plain' : Plain r' := ⟨by decide, by decide +kernel⟩
  let key := "cache:POST:/items/:id:query=\x7b\"page\":\"1\"\x7d:body=\x7b\"id\":7\x7d"
  have has : rule.build "cache" r = key := by decide +kernel
  have has' : rule'.build "cache" r' = key := by decide +kernel
  have same := has.trans has'.symm
  exact ⟨rule, rule', r, r', by decide, plain, plain', same, build_injective rfl rfl plain plain' same⟩

end KeyRule

end ResponseCache
