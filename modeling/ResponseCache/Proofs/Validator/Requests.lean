import ResponseCache.Proofs.Json.Number
import ResponseCache.Proofs.Validator.Interning

/-!
# What a request gets

What a validator cache keeps are texts with ids and artifacts, in order of the latest requests
(`ValidatorCache.entries`). A request for a schema that is kept, the order of its fields aside, gets the artifact and
moves it to the end (`Interns.entries_kept`). Any other request compiles. If it fails, what is kept stays as it is
(`Interns.entries_failed`); if it succeeds, the artifact goes to the end, and in a full cache the head goes
(`Interns.entries_compiled`).

So what is kept for a schema was compiled last for it (`History.last_compiled`), and the head was requested longest ago
(`History.order`). Compilations are counted as misses and all other requests as hits (`History.counted`). That is
`requests_follow_history`.
-/

namespace ResponseCache.ValidatorCache

variable {A : Type}

/-! ## What is kept, and what happened -/

/-- The text, the id and the artifact of each schema that is kept, the one requested last at the end. -/
def entries (c : ValidatorCache A) : List (Option String × SchemaId × A) :=
  c.compiled.toList.map fun p => (c.schemas[p.1]?, p)

/-- An artifact is kept for a schema. -/
def Keeps (c : ValidatorCache A) (schema : Json) (artifact : A) : Prop :=
  ∃ id, (some (identity schema), id, artifact) ∈ c.entries

/-- The schema that a call asks for, and what it gets. -/
def Event.answer? : Event A → Option (Json × Except CacheError A × Bool)
  | ⟨c, .getOrCompile schema compile⟩ => some (schema, (c.getOrCompile schema compile).1)
  | _ => none

/-- The call asked for a schema that is the same. -/
def Event.Asks (schema : Json) (e : Event A) : Prop := ∃ asked got, e.answer? = some (asked, got) ∧ asked.Same schema

/-- The call compiled a schema that is the same to an artifact. -/
def Event.Compiles (schema : Json) (artifact : A) (e : Event A) : Prop :=
  ∃ asked, e.answer? = some (asked, .ok artifact, true) ∧ asked.Same schema

/-- By the history an artifact is what a schema was compiled to last. -/
inductive LastCompiled (schema : Json) (artifact : A) : List (Event A) → Prop
  | here {e : Event A} {h : List (Event A)} : e.Compiles schema artifact → LastCompiled schema artifact (e :: h)
  | before {e : Event A} {h : List (Event A)} : (∀ other, ¬ e.Compiles schema other) →
      LastCompiled schema artifact h → LastCompiled schema artifact (e :: h)

/-- By the history another schema was asked for after the latest request for this one. -/
inductive AskedSince (schema other : Json) : List (Event A) → Prop
  | here {e : Event A} {h : List (Event A)} : e.Asks other → AskedSince schema other (e :: h)
  | before {e : Event A} {h : List (Event A)} : ¬ e.Asks schema → AskedSince schema other h →
      AskedSince schema other (e :: h)

/-- The events since the latest reset of the counters, the latest first. -/
def sinceReset : List (Event A) → List (Event A)
  | [] => []
  | ⟨_, .resetStats⟩ :: _ => []
  | e :: h => e :: sinceReset h

/-- How many schemas were asked for. -/
def requests (h : List (Event A)) : Nat := h.countP fun e => e.answer?.isSome

/-- How many requests compiled. -/
def compilations (h : List (Event A)) : Nat := h.countP fun e => e.answer?.any (·.2.2)

/-- **Schemas have one text** just if they are the same. -/
theorem identity_eq_iff {schema other : Json} : identity schema = identity other ↔ schema.Same other :=
  Json.canonical_text_iff

/-! ## One call -/

theorem after_getOrCompile (c : ValidatorCache A) (schema : Json) (compile : Json → Except CacheError A) :
    c.after (.getOrCompile schema compile) = (c.getOrCompile schema compile).2 := rfl

namespace Interns

variable {c : ValidatorCache A} {r r' : Lru.Recency SchemaId A} {call : Call A} {schema : Json} {id : SchemaId}

theorem entries_eq (interns : Interns [] c r) : c.entries = r.entries.map fun p => (c.schemas[p.1]?, p) := by
  rw [entries, interns.ties.entries]

theorem mem_entries (interns : Interns [] c r) {text : Option String} {artifact : A} :
    (text, id, artifact) ∈ c.entries ↔ c.schemas[id]? = text ∧ (id, artifact) ∈ r.entries := by
  rw [interns.entries_eq, List.mem_map]
  constructor
  · rintro ⟨p, mem, eq⟩
    injection eq with named eq
    subst eq
    exact ⟨named, mem⟩
  · rintro ⟨named, mem⟩
    exact ⟨(id, artifact), mem, by rw [named]⟩

theorem text_of_mem (interns : Interns [] c r) (mem : id ∈ r.keys) : ∃ text, c.schemas[id]? = some text :=
  (interns.held id).2 (.inl mem)

/-- A schema is kept under the id that it has. -/
theorem idOf?_eq_some_iff (interns : Interns [] c r) : c.idOf? schema = some id ↔
    ∃ artifact, (some (identity schema), id, artifact) ∈ c.entries := by
  rw [idOf?, interns.inverse]
  simp only [interns.mem_entries]
  constructor
  · intro here
    have mem : id ∈ r.keys := by simpa using (interns.held id).1 ⟨_, here⟩
    obtain ⟨⟨_, artifact⟩, mem', rfl⟩ := List.mem_map.1 mem
    exact ⟨artifact, here, mem'⟩
  · rintro ⟨_, here, -⟩
    exact here

/-- A schema without an id has no artifact. -/
theorem text_ne_of_fresh (interns : Interns [] c r) (fresh : c.idOf? schema = none) :
    ∀ p ∈ c.entries, p.1 ≠ some (identity schema) := by
  rintro ⟨_, id, artifact⟩ mem rfl
  rw [interns.idOf?_eq_some_iff.2 ⟨artifact, mem⟩] at fresh
  cases fresh

/-- What is there after a call has the text that it had. -/
theorem text_after (interns : Interns [] c r) (later : Interns [] (c.after call) r') (mem : id ∈ r.keys)
    (mem' : id ∈ r'.keys) : (c.after call).schemas[id]? = c.schemas[id]? := by
  obtain ⟨text, here⟩ := interns.text_of_mem mem
  obtain ⟨text', there⟩ := later.text_of_mem mem'
  rcases given_of_after there with before | given
  · rw [before, there]
  · -- an id that was there is below those that are given
    obtain ⟨rfl, -⟩ := given_spec given
    exact absurd (interns.below _ _ here) (UInt64.lt_irrefl _)

theorem texts_after (interns : Interns [] c r) (later : Interns [] (c.after call) r') {l : List (SchemaId × A)}
    (sub : l ⊆ r.entries) (sub' : l ⊆ r'.entries) :
    (l.map fun p => ((c.after call).schemas[p.1]?, p)) = l.map fun p => (c.schemas[p.1]?, p) := by
  apply List.map_congr_left
  intro p mem
  rw [interns.text_after later (List.mem_map_of_mem (sub mem)) (List.mem_map_of_mem (sub' mem))]

/-- **A schema that is kept** gets its artifact, and goes to the end. -/
theorem entries_kept (interns : Interns [] c r) (compile : Json → Except CacheError A)
    (known : c.idOf? schema = some id) (few : r.touches + 1 < 2 ^ 64) : ∃ artifact,
      (some (identity schema), id, artifact) ∈ c.entries ∧
      (c.getOrCompile schema compile).1 = (.ok artifact, false) ∧ (c.getOrCompile schema compile).2.entries =
        (c.entries.filter fun p => p.2.1 != id) ++ [(some (identity schema), id, artifact)] := by
  obtain ⟨artifact, found, result, later⟩ := interns.kept compile known few
  have mem := (Lru.lookup_eq_some_iff interns.ties.nodup_keys).1 found
  have text := (interns.inverse _ _).1 known
  refine ⟨artifact, interns.mem_entries.2 ⟨text, mem⟩, result, ?_⟩
  have later : Interns [] (c.after (.getOrCompile schema compile)) _ := later
  have id_mem : id ∈ r.keys := List.mem_map_of_mem mem
  have touched : (r.touch id artifact).entries = (r.erase id).entries ++ [(id, artifact)] := rfl
  refine later.entries_eq.trans ?_
  show (r.touch id artifact).entries.map _ = _
  have same := interns.texts_after later (show (r.erase id).entries ⊆ r.entries from List.filter_sublist.subset)
    (show (r.erase id).entries ⊆ (r.touch id artifact).entries from List.subset_append_left _ _)
  have named := interns.text_after later id_mem ((Lru.Recency.mem_keys_touch artifact).2 (.inl rfl))
  rw [touched, List.map_append, same, List.map_singleton, named, text, interns.entries_eq, List.filter_map]
  rfl

section Missing

variable (interns : Interns [] c r) (fresh : c.idOf? schema = none) (ahead : c.nextId < c.nextId + 1)
include interns fresh ahead

/-- **A compilation that fails** leaves what is kept as it is. -/
theorem entries_failed (few : r.touches < 2 ^ 64) {compile : Json → Except CacheError A} {e : CacheError}
    (fails : compile schema = .error e) : (c.getOrCompile schema compile).1 = (.error e, true) ∧
      (c.getOrCompile schema compile).2.entries = c.entries := by
  obtain ⟨result, later⟩ := interns.failed fresh ahead few fails
  have later : Interns [] (c.after (.getOrCompile schema compile)) _ := later
  refine ⟨result, later.entries_eq.trans ?_⟩
  rw [interns.entries_eq]
  exact interns.texts_after later (List.Subset.refl _) (List.Subset.refl _)

/-- The account after a compilation that succeeds. -/
theorem list_compiled (artifact : A) :
    (({ r with misses := r.misses + 1 } : Lru.Recency SchemaId A).insert c.nextId artifact).2.entries =
      r.entries.drop (if c.size < c.compiled.capacity then 0 else 1) ++ [(c.nextId, artifact)] := by
  have absent := (interns.intern fresh ahead).1
  have none : r.find? c.nextId = none := Lru.Recency.find?_eq_none_iff.2 absent
  have size : c.size = r.entries.length := interns.ties.length
  have capacity := interns.ties.capacity
  have others : ∀ n, (r.entries.drop n).filter (·.1 != c.nextId) = r.entries.drop n := by
    intro n
    apply List.filter_eq_self.2
    intro p mem
    apply bne_iff_ne.2
    rintro same
    exact absent (same ▸ List.mem_map_of_mem (List.mem_of_mem_drop mem))
  rw [Lru.Recency.entries_insert, others]
  show r.entries.drop (if (r.find? c.nextId).isNone ∧ r.capacity ≤ r.entries.length then 1 else 0) ++ _ = _
  rw [none, size, capacity]
  by_cases room : r.entries.length < r.capacity
  · rw [if_pos room, if_neg fun full => Nat.not_le.2 room full.2]
  · rw [if_neg room, if_pos ⟨rfl, Nat.le_of_not_lt room⟩]

/-- **A compilation that succeeds** puts its artifact at the end. In a full cache the head makes room. -/
theorem entries_compiled (few : r.touches + 1 < 2 ^ 64) {compile : Json → Except CacheError A} {artifact : A}
    (succeeds : compile schema = .ok artifact) : (c.getOrCompile schema compile).1 = (.ok artifact, true) ∧
      (c.getOrCompile schema compile).2.entries = c.entries.drop (if c.size < c.compiled.capacity then 0 else 1) ++
        [(some (identity schema), c.nextId, artifact)] := by
  obtain ⟨result, later⟩ := interns.compiled fresh ahead few succeeds
  have later : Interns [] (c.after (.getOrCompile schema compile)) _ := later
  have list := interns.list_compiled fresh ahead artifact
  refine ⟨result, later.entries_eq.trans ?_⟩
  -- the next id is given to the schema
  have last : (c.nextId, artifact) ∈
      (({ r with misses := r.misses + 1 } : Lru.Recency SchemaId A).insert c.nextId artifact).2.entries := by
    rw [list]
    exact List.mem_append_right _ (List.mem_singleton_self _)
  have named : (c.after (.getOrCompile schema compile)).schemas[c.nextId]? = some (identity schema) := by
    obtain ⟨text, there⟩ := later.text_of_mem (List.mem_map_of_mem last)
    rcases given_of_after there with before | given
    · exact absurd (interns.below _ _ before) (UInt64.lt_irrefl _)
    · unfold Event.given? at given
      dsimp only at given
      rw [fresh] at given
      rw [there, (Prod.mk.inj (Option.some.inj given)).2]
  have same := interns.texts_after later (List.drop_subset (if c.size < c.compiled.capacity then 0 else 1) r.entries)
    (by rw [list]; exact List.subset_append_left _ _)
  rw [list, List.map_append, same, List.map_singleton, named, interns.entries_eq, List.map_drop]

end Missing

/-- A call that asks for no schema leaves some of what is kept, in the same order. -/
theorem sublist_after (interns : Interns [] c r) (few : r.touches < 2 ^ 64)
    (asks : Event.answer? ⟨c, call⟩ = none) : (c.after call).entries.Sublist c.entries := by
  have of_account : ∀ {r'}, Interns [] (c.after call) r' → r'.entries.Sublist r.entries →
      (c.after call).entries.Sublist c.entries := by
    intro r' later sub
    rw [later.entries_eq, interns.texts_after later sub.subset (List.Subset.refl _), interns.entries_eq]
    exact sub.map _
  cases call with
  | getOrCompile => cases asks
  | clear => exact of_account (interns.cleared few) (List.nil_sublist _)
  | resize capacity =>
    refine of_account (interns.resized capacity) ?_
    unfold Lru.Recency.resize
    split
    · exact .refl _
    · exact List.drop_sublist _ _
  | resetStats => exact of_account (interns.recounted few) (.refl _)

end Interns

/-! ## Histories -/

section Histories

variable {capacity : Nat} {h : List (Event A)} {c : ValidatorCache A} {schema : Json} {artifact : A}

theorem History.next_ahead (history : History capacity h c) (few : h.length + 1 < 2 ^ 64) :
    c.nextId < c.nextId + 1 := by
  rw [history.ids_given.1]
  exact Words.lt_succ (Nat.lt_of_le_of_lt (Nat.succ_le_succ (length_given_le h)) few)

theorem entries_of_create (create : ValidatorCache.create capacity = .ok c) : c.entries = [] :=
  (interns_of_create create).entries_eq

/-- **What a call does** to what is kept. Either it asks for a schema, and an artifact stands at the end that was kept
for the schema or is compiled now, or it leaves some of what is kept, and asks for no schema that is kept. -/
theorem History.call_cases (history : History capacity h c) (few : h.length + 1 < 2 ^ 64) (call : Call A) :
    (∃ schema id artifact rest, (∃ got, Event.answer? ⟨c, call⟩ = some (schema, got)) ∧ rest.Sublist c.entries ∧
      (∀ p ∈ rest, p.1 ≠ some (identity schema)) ∧
      (c.after call).entries = rest ++ [(some (identity schema), id, artifact)] ∧
      ((some (identity schema), id, artifact) ∈ c.entries ∧
          Event.answer? ⟨c, call⟩ = some (schema, .ok artifact, false) ∨
        (∀ p ∈ c.entries, p.1 ≠ some (identity schema)) ∧
          Event.answer? ⟨c, call⟩ = some (schema, .ok artifact, true))) ∨
    ((c.after call).entries.Sublist c.entries ∧ (∀ schema got, Event.answer? ⟨c, call⟩ = some (schema, got) →
      (∃ e, got = (.error e, true)) ∧ ∀ p ∈ c.entries, p.1 ≠ some (identity schema))) := by
  obtain ⟨r, interns, touches, -⟩ := history.interns (Nat.lt_of_succ_lt few)
  have ahead := history.next_ahead few
  cases call with
  | getOrCompile schema compile =>
    cases known : c.idOf? schema with
    | some id =>
      obtain ⟨artifact, mem, result, later⟩ := interns.entries_kept compile known (by omega)
      have answer : Event.answer? ⟨c, .getOrCompile schema compile⟩ = some (schema, .ok artifact, false) :=
        congrArg (fun got => some (schema, got)) result
      refine .inl ⟨schema, id, artifact, _, ⟨_, answer⟩, List.filter_sublist, ?_, later, .inl ⟨mem, answer⟩⟩
      rintro ⟨_, id', artifact'⟩ mem' rfl
      obtain ⟨mem', other⟩ := List.mem_filter.1 mem'
      rw [interns.idOf?_eq_some_iff.2 ⟨_, mem'⟩] at known
      cases known
      exact absurd rfl (bne_iff_ne.1 other)
    | none =>
      have fresh := interns.text_ne_of_fresh known
      cases made : compile schema with
      | error e =>
        obtain ⟨result, later⟩ := interns.entries_failed known ahead (by omega) made
        refine .inr ⟨later ▸ .refl _, ?_⟩
        rintro _ _ ⟨⟩
        exact ⟨⟨e, result⟩, fresh⟩
      | ok artifact =>
        obtain ⟨result, later⟩ := interns.entries_compiled known ahead (by omega) made
        have answer : Event.answer? ⟨c, .getOrCompile schema compile⟩ = some (schema, .ok artifact, true) :=
          congrArg (fun got => some (schema, got)) result
        refine .inl ⟨schema, c.nextId, artifact, _, ⟨_, answer⟩, List.drop_sublist _ _, ?_, later, .inr ⟨fresh, answer⟩⟩
        exact fun p mem => fresh p (List.mem_of_mem_drop mem)
  | clear | resize | resetStats =>
    exact .inr ⟨interns.sublist_after (by omega) rfl, nofun⟩

/-- **What is kept for a schema** is what it was compiled to last. -/
theorem History.last_compiled (history : History capacity h c) (few : h.length < 2 ^ 64)
    (keeps : c.Keeps schema artifact) : LastCompiled schema artifact h := by
  induction history with
  | create create =>
    obtain ⟨id, mem⟩ := keeps
    rw [entries_of_create create] at mem
    cases mem
  | @call h c call history ih =>
    rw [List.length_cons] at few
    have ih := fun keeps => ih (Nat.lt_of_succ_lt few) keeps
    obtain ⟨id, mem⟩ := keeps
    rcases history.call_cases few call with
      ⟨asked, id', artifact', rest, -, sub, others, list, which⟩ | ⟨sub, fails⟩
    · rw [list, List.mem_append, List.mem_singleton] at mem
      rcases mem with mem | last
      · refine .before ?_ (ih ⟨id, sub.subset mem⟩)
        rintro other ⟨asked', answer', same⟩
        rcases which with ⟨-, answer⟩ | ⟨-, answer⟩
        · cases answer.symm.trans answer'
        · cases answer.symm.trans answer'
          exact others _ mem (congrArg some (identity_eq_iff.2 same.symm))
      · simp only [Prod.mk.injEq, Option.some.injEq] at last
        obtain ⟨text, rfl, rfl⟩ := last
        rcases which with ⟨before, answer⟩ | ⟨-, answer⟩
        · rw [← text] at before
          refine .before ?_ (ih ⟨id, before⟩)
          rintro other ⟨asked', answer', -⟩
          cases answer.symm.trans answer'
        · exact .here ⟨asked, answer, identity_eq_iff.1 text.symm⟩
    · refine .before ?_ (ih ⟨id, sub.subset mem⟩)
      rintro other ⟨asked, answer, -⟩
      obtain ⟨⟨e, error⟩, -⟩ := fails _ _ answer
      cases error

/-- **What is kept** stands in order of the latest requests, the ones longest ago first. -/
theorem History.order (history : History capacity h c) (few : h.length < 2 ^ 64) :
    c.entries.Pairwise fun p q => ∀ schema other, p.1 = some (identity schema) → q.1 = some (identity other) →
      AskedSince schema other h := by
  induction history with
  | create create =>
    rw [entries_of_create create]
    exact .nil
  | @call h c call history ih =>
    rw [List.length_cons] at few
    have ordered := ih (Nat.lt_of_succ_lt few)
    rcases history.call_cases few call with
      ⟨asked, id, artifact, rest, ⟨got, answer⟩, sub, others, list, -⟩ | ⟨sub, fails⟩
    · rw [list]
      refine List.pairwise_append.2 ⟨?_, List.pairwise_singleton _ _, ?_⟩
      · refine (ordered.sublist sub).imp_of_mem ?_
        intro p q mem _ older schema other here there
        refine .before ?_ (older schema other here there)
        rintro ⟨asked', got', answer', same⟩
        cases answer.symm.trans answer'
        exact others p mem (here.trans (congrArg some (identity_eq_iff.2 same.symm)))
      · intro p _ q last schema other _ there
        rw [List.mem_singleton.1 last] at there
        exact .here ⟨asked, got, answer, identity_eq_iff.1 (Option.some.inj there)⟩
    · refine (ordered.sublist sub).imp_of_mem ?_
      intro p q mem _ older schema other here there
      refine .before ?_ (older schema other here there)
      rintro ⟨asked, got, answer, same⟩
      obtain ⟨-, unkept⟩ := fails _ _ answer
      exact unkept p (sub.subset mem) (here.trans (congrArg some (identity_eq_iff.2 same.symm)))

section Counts

variable {e : Event A} {got : Except CacheError A}

theorem requests_cons {compiles : Bool} (answer : e.answer? = some (schema, got, compiles)) :
    requests (e :: h) = requests h + 1 := by
  rw [requests, List.countP_cons_of_pos (by rw [answer]; rfl), requests]

theorem compilations_cons (answer : e.answer? = some (schema, got, true)) :
    compilations (e :: h) = compilations h + 1 := by
  rw [compilations, List.countP_cons_of_pos (by rw [answer]; rfl), compilations]

theorem compilations_cons_kept (answer : e.answer? = some (schema, got, false)) :
    compilations (e :: h) = compilations h := by
  rw [compilations, List.countP_cons_of_neg (by rw [answer]; exact Bool.false_ne_true), compilations]

end Counts

theorem length_sinceReset_le : ∀ h : List (Event A), (sinceReset h).length ≤ h.length
  | [] => Nat.le_refl _
  | ⟨_, .resetStats⟩ :: _ => Nat.zero_le _
  | ⟨_, .getOrCompile _ _⟩ :: h | ⟨_, .clear⟩ :: h | ⟨_, .resize _⟩ :: h =>
    Nat.succ_le_succ (length_sinceReset_le h)

/-- **Compilations are misses**, and all other requests are hits. -/
theorem History.counted (history : History capacity h c) (few : h.length < 2 ^ 64) :
    ∃ r, Interns [] c r ∧ r.touches ≤ h.length ∧ r.misses = compilations (sinceReset h) ∧
      r.hits + r.misses = requests (sinceReset h) := by
  induction history with
  | create create => exact ⟨_, interns_of_create create, Nat.le_refl _, rfl, rfl⟩
  | @call h c call history ih =>
    rw [List.length_cons] at few
    obtain ⟨r, interns, touches, misses, looks⟩ := ih (Nat.lt_of_succ_lt few)
    have ahead := history.next_ahead few
    cases call with
    | getOrCompile schema compile =>
      set e : Event A := ⟨c, .getOrCompile schema compile⟩
      have since : sinceReset (e :: h) = e :: sinceReset h := rfl
      rw [since]
      have answer : ∀ {got}, (c.getOrCompile schema compile).1 = got → e.answer? = some (schema, got) :=
        congrArg fun got => some (schema, got)
      cases known : c.idOf? schema with
      | some id =>
        obtain ⟨artifact, -, result, later⟩ := interns.kept compile known (by omega)
        rw [requests_cons (answer result), compilations_cons_kept (answer result)]
        refine ⟨_, later, Nat.succ_le_succ touches, misses, ?_⟩
        show r.hits + 1 + r.misses = _
        omega
      | none =>
        cases made : compile schema with
        | error error =>
          obtain ⟨result, later⟩ := interns.failed known ahead (by omega) made
          rw [requests_cons (answer result), compilations_cons (answer result)]
          refine ⟨_, later, Nat.le_succ_of_le touches, congrArg (· + 1) misses, ?_⟩
          show r.hits + (r.misses + 1) = _
          omega
        | ok artifact =>
          obtain ⟨result, later⟩ := interns.compiled known ahead (by omega) made
          have looks' := Lru.Recency.looks_insert ({ r with misses := r.misses + 1 } : Lru.Recency SchemaId A)
            c.nextId artifact
          have touches' := Lru.Recency.touches_insert ({ r with misses := r.misses + 1 } : Lru.Recency SchemaId A)
            c.nextId artifact
          dsimp only at looks' touches'
          rw [requests_cons (answer result), compilations_cons (answer result)]
          refine ⟨_, later, ?_, ?_, ?_⟩
          · rw [touches', List.length_cons]
            omega
          · rw [looks'.2, misses]
          · rw [looks'.1, looks'.2]
            omega
    | clear => exact ⟨_, interns.cleared (by omega), Nat.le_succ_of_le touches, misses, looks⟩
    | resize capacity =>
      refine ⟨_, interns.resized capacity, ?_, ?_, ?_⟩
      · unfold Lru.Recency.resize
        split <;> exact Nat.le_succ_of_le touches
      · unfold Lru.Recency.resize
        split <;> exact misses
      · unfold Lru.Recency.resize
        split <;> exact looks
    | resetStats => exact ⟨_, interns.recounted (by omega), Nat.le_succ_of_le touches, rfl, rfl⟩

/-- A call of a history was made to a cache with the history before it. -/
theorem History.at_call {later earlier : List (Event A)} {e : Event A}
    (history : History capacity (later ++ e :: earlier) c) : History capacity earlier e.cache := by
  induction later generalizing c with
  | nil =>
    cases history with
    | call _ history => exact history
  | cons d later ih =>
    cases history with
    | call _ history => exact ih history

/-- What is counted are the compilations and the requests since the latest reset. -/
theorem History.counters (history : History capacity h c) (few : h.length < 2 ^ 64) :
    c.stats.misses.toNat = compilations (sinceReset h) ∧
      c.stats.hits.toNat + c.stats.misses.toNat = requests (sinceReset h) := by
  obtain ⟨r, interns, touches, misses, looks⟩ := history.counted few
  have le : requests (sinceReset h) ≤ h.length := Nat.le_trans List.countP_le_length (length_sinceReset_le h)
  have hits_eq : c.stats.hits = .ofNat r.hits := interns.ties.hits
  have misses_eq : c.stats.misses = .ofNat r.misses := interns.ties.misses
  rw [hits_eq, misses_eq, Words.toNat_ofNat (by omega), Words.toNat_ofNat (by omega)]
  exact ⟨misses, looks⟩

end Histories

/-- A request uses nothing of the compilation but what it gives for the schema, and that only if it says so. -/
theorem getOrCompile_congr {c : ValidatorCache A} {schema : Json} {compile compile' : Json → Except CacheError A}
    (same : (c.getOrCompile schema compile).1.2 = true → compile' schema = compile schema) :
    c.getOrCompile schema compile' = c.getOrCompile schema compile := by
  unfold getOrCompile at same ⊢
  dsimp only at same ⊢
  split
  · rfl
  · next compiled missed =>
    rw [missed] at same
    dsimp only at same
    have made : compile' schema = compile schema := by
      apply same
      split <;> rfl
    rw [made]

/-- A request to a cache, by the history of the cache. -/
structure Served (h : List (Event A)) (c : ValidatorCache A) (schema : Json)
    (compile : Json → Except CacheError A) : Prop where
  /-- What a compilation gives for another schema does not matter, and nothing of it if none is made. -/
  called : ∀ compile', ((c.getOrCompile schema compile).1.2 = true → compile' schema = compile schema) →
    c.getOrCompile schema compile' = c.getOrCompile schema compile
  /-- It compiles just if nothing is kept for the schema, the order of fields aside. -/
  compiles_iff : (c.getOrCompile schema compile).1.2 = true ↔
    ∀ other artifact, other.Same schema → ¬ c.Keeps other artifact
  /-- Else it gets what the schema was compiled to last, which goes to the end. -/
  kept : (c.getOrCompile schema compile).1.2 = false → ∃ id artifact, LastCompiled schema artifact h ∧
    (some (identity schema), id, artifact) ∈ c.entries ∧ (c.getOrCompile schema compile).1 = (.ok artifact, false) ∧
    (c.getOrCompile schema compile).2.entries =
      (c.entries.filter fun p => p.2.1 != id) ++ [(some (identity schema), id, artifact)]
  /-- A compilation that succeeds goes to the end, and of a full cache the head goes. -/
  compiled : (c.getOrCompile schema compile).1.2 = true → ∀ artifact, compile schema = .ok artifact →
    (c.getOrCompile schema compile).1 = (.ok artifact, true) ∧
    (c.size < c.compiled.capacity → (c.getOrCompile schema compile).2.entries =
      c.entries ++ [(some (identity schema), c.nextId, artifact)]) ∧
    (c.compiled.capacity ≤ c.size → (c.getOrCompile schema compile).2.entries =
      c.entries.drop 1 ++ [(some (identity schema), c.nextId, artifact)])
  /-- One that fails changes nothing of what is kept. -/
  failed : (c.getOrCompile schema compile).1.2 = true → ∀ e, compile schema = .error e →
    (c.getOrCompile schema compile).1 = (.error e, true) ∧ (c.getOrCompile schema compile).2.entries = c.entries
  /-- All that is kept was compiled last for its schema. -/
  latest : ∀ other artifact, c.Keeps other artifact → LastCompiled other artifact h
  /-- The head is what was asked for longest ago, and so on. -/
  order : c.entries.Pairwise fun p q => ∀ schema other, p.1 = some (identity schema) → q.1 = some (identity other) →
    AskedSince schema other h
  /-- The ids are those of what is kept. -/
  ids : ∀ other id, c.idOf? other = some id ↔ ∃ artifact, (some (identity other), id, artifact) ∈ c.entries

theorem History.served {capacity : Nat} {h : List (Event A)} {c : ValidatorCache A} (history : History capacity h c)
    (few : h.length + 1 < 2 ^ 64) (schema : Json) (compile : Json → Except CacheError A) :
    Served h c schema compile := by
  obtain ⟨r, interns, touches, -⟩ := history.interns (Nat.lt_of_succ_lt few)
  have ahead := history.next_ahead few
  have order := history.order (Nat.lt_of_succ_lt few)
  have latest : ∀ other artifact, c.Keeps other artifact → LastCompiled other artifact h :=
    fun _ _ keeps => history.last_compiled (Nat.lt_of_succ_lt few) keeps
  have ids : ∀ other id, c.idOf? other = some id ↔ ∃ artifact, (some (identity other), id, artifact) ∈ c.entries :=
    fun other id => interns.idOf?_eq_some_iff
  cases known : c.idOf? schema with
  | some id =>
    obtain ⟨artifact, mem, result, later⟩ := interns.entries_kept compile known (by omega)
    have keeps : c.Keeps schema artifact := ⟨id, mem⟩
    have compiles : (c.getOrCompile schema compile).1.2 ≠ true := by
      rw [result]
      exact Bool.false_ne_true
    constructor
    case called => exact fun _ => getOrCompile_congr
    case compiles_iff => exact iff_of_false compiles fun none => none schema artifact (.refl schema) keeps
    case kept => exact fun _ => ⟨id, artifact, latest _ _ keeps, mem, result, later⟩
    case compiled => exact fun yes => absurd yes compiles
    case failed => exact fun yes => absurd yes compiles
    case latest => exact latest
    case order => exact order
    case ids => exact ids
  | none =>
    have compiles : (c.getOrCompile schema compile).1.2 = true := by
      cases made : compile schema with
      | error e => rw [(interns.entries_failed known ahead (by omega) made).1]
      | ok artifact => rw [(interns.entries_compiled known ahead (by omega) made).1]
    constructor
    case called => exact fun _ => getOrCompile_congr
    case compiles_iff =>
      refine iff_of_true compiles ?_
      rintro other artifact same ⟨id, mem⟩
      exact interns.text_ne_of_fresh known _ mem (congrArg some (identity_eq_iff.2 same))
    case kept =>
      intro no
      rw [compiles] at no
      cases no
    case compiled =>
      intro _ artifact made
      obtain ⟨result, later⟩ := interns.entries_compiled known ahead (by omega) made
      refine ⟨result, fun room => ?_, fun full => ?_⟩
      · rw [later, if_pos room, List.drop_zero]
      · rw [later, if_neg (Nat.not_lt_of_le full)]
    case failed => exact fun _ e made => interns.entries_failed known ahead (by omega) made
    case latest => exact latest
    case order => exact order
    case ids => exact ids

/-- **Requests follow the history.** In every history of fewer calls than a word counts, each request compiles just if
nothing is kept for its schema, the order of fields aside, and gets the result of the compilation, or else what the
schema was compiled to last. What is compiled is kept as the latest, and takes the place of what was asked for longest
ago if the cache is full; what cannot be compiled leaves all that is kept as it is, in its order and under its ids.
Since the latest reset, the compilations were counted as misses and the other requests as hits. -/
theorem requests_follow_history {capacity : Nat} {h : List (Event A)} {c : ValidatorCache A}
    (history : History capacity h c) (few : h.length < 2 ^ 64) :
    (∀ later e earlier, h = later ++ e :: earlier → ∀ schema compile, Served earlier e.cache schema compile) ∧
    c.stats.misses.toNat = compilations (sinceReset h) ∧
    c.stats.hits.toNat + c.stats.misses.toNat = requests (sinceReset h) := by
  refine ⟨?_, history.counters few⟩
  rintro later e earlier rfl schema compile
  rw [List.length_append, List.length_cons] at few
  exact history.at_call.served (by omega) schema compile

/-- With room for one, a schema that comes again with its fields in another order gets what it was compiled to, one that
cannot be compiled changes nothing, and the next one takes the place. -/
theorem requests_follow_history_evicted : ∃ (h : List (Event Nat)) (c : ValidatorCache Nat), History 1 h c ∧
    h.length < 2 ^ 64 ∧ c.stats.misses.toNat = 3 ∧ c.stats.hits.toNat + c.stats.misses.toNat = 4 ∧
    (∃ later e earlier, h = later ++ e :: earlier ∧
      LastCompiled (.object [("b", .null), ("a", .bool true)]) 10 earlier) ∧
    ∃ e earlier, h = e :: earlier ∧
      c.entries = e.cache.entries.drop 1 ++ [(some (identity (.bool true)), e.cache.nextId, 20)] := by
  let permuted : Json := .object [("b", .null), ("a", .bool true)]
  let first : ValidatorCache Nat := ⟨∅, ∅, 0, ⟨∅, ∅, 0, 1, {}, by decide⟩⟩
  let second := first.after (.getOrCompile (.object [("a", .bool true), ("b", .null)]) fun _ => .ok 10)
  let third := second.after (.getOrCompile permuted fun _ => .ok 15)
  let last := third.after (.getOrCompile .null fun _ => .error (.compile "no"))
  have history : History 1 [⟨last, .getOrCompile (.bool true) fun _ => .ok 20⟩,
      ⟨third, .getOrCompile .null fun _ => .error (.compile "no")⟩, ⟨second, .getOrCompile permuted fun _ => .ok 15⟩,
      ⟨first, .getOrCompile (.object [("a", .bool true), ("b", .null)]) fun _ => .ok 10⟩]
      (last.after (.getOrCompile (.bool true) fun _ => .ok 20)) :=
    .call _ (.call _ (.call _ (.call _ (.create rfl))))
  obtain ⟨served, misses, looks⟩ := requests_follow_history history (by decide)
  refine ⟨_, _, history, by decide, misses.trans (by decide +kernel), looks.trans (by decide +kernel),
    ⟨[_, _], _, _, rfl, ?_⟩, ⟨_, _, rfl, ?_⟩⟩
  · obtain ⟨id, artifact, latest, -, result, -⟩ :=
      (served [_, _] _ _ rfl permuted fun _ => .ok 15).kept (by decide +kernel)
    have found : (second.getOrCompile permuted fun _ => .ok 15).1.1.toOption = some 10 := by decide +kernel
    rw [result] at found
    cases found
    exact latest
  · obtain ⟨-, -, evicts⟩ := (served [] _ _ rfl (.bool true) fun _ => .ok 20).compiled (by decide +kernel) 20 rfl
    have evicted := evicts (by decide +kernel)
    rw [after_getOrCompile]
    dsimp only at evicted ⊢
    exact evicted

end ResponseCache.ValidatorCache
