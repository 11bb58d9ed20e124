import ResponseCache.Proofs.Pool.Basic
import ResponseCache.Proofs.Store.History
import ResponseCache.Proofs.Store.Standing

/-!
# Chronicles of a pool

What happens to a pool is told by its deeds: the actions that were answered, each with its answer and with the place
of the request whose action it was. A `Chronicle` has all of them in order, so it relates what different requests did,
which their own logs do not. The log of each request is its part of the chronicle (`Chronicle.log`), at every deed
there was a pool that it was done in (`Chronicle.split`), what the store holds was written by a deed that nothing
later removed (`Chronicle.written`), and the calls of all deeds are a history of the store (`Chronicle.history`).
-/

namespace ResponseCache

open Http
open Relation (ReflTransGen)

/-- An action with its answer, and the place of the request that took it. Nobody has a place who is no request, or who
sees to the locks of requests that are gone. -/
structure Deed where
  place : Option Nat
  event : Program.Event

namespace Program.Event

/-- The store carried an operation out. -/
def Carried (op : Operation) (e : Program.Event) : Prop :=
  ∃ now store result, e = ⟨now, store, .operate op, .ok result⟩

theorem Carried.unique {e : Program.Event} {op op' : Operation} (a : e.Carried op) (b : e.Carried op') : op = op' := by
  obtain ⟨_, _, _, eq⟩ := a
  obtain ⟨_, _, _, eq'⟩ := b
  injection eq.symm.trans eq' with _ _ action
  injection action

end Program.Event

/-- A request that was given up or answered. -/
def Task.Over (t : Task) : Prop := ∀ action resume, t.next ≠ some (.perform action resume)

section Chronicles

variable (S : Surroundings)

/-- A step of a pool with its deed, if it is one. -/
inductive Pool.Does : Pool → Option Deed → Pool → Prop
  | pass (p : Pool) (duration : Millis) : Does p none { p with now := p.now + duration }
  | arrive (p : Pool) {v : Visit} : S.comes v →
      Does p none { p with tasks := p.tasks ++ [{ visit := v, next := some (v.serve S.settings), since := p.now }] }
  | turn {p : Pool} {i : Nat} {t : Task} {action : Action} {resume : action.Reply → Program Response}
      {reply : action.Reply} {store : Store} {tally : Tally} :
      p.tasks[i]? = some t → t.next = some (.perform action resume) →
      Answered S p.now t.since p.store p.tally action reply store tally →
      Does p (some ⟨some i, ⟨p.now, p.store, action, reply⟩⟩) { p with
        store := store
        tally := tally
        tasks := p.tasks.set i { t with
          next := some (resume reply)
          since := p.now
          held := action.holding t.held
          log := ⟨p.now, p.store, action, reply⟩ :: t.log } }
  | drop {p : Pool} {i : Nat} {t : Task} {action : Action} {resume : action.Reply → Program Response} :
      p.tasks[i]? = some t → t.next = some (.perform action resume) → action.suspends = true → S.mayDrop t.visit →
      Does p none { p with tasks := p.tasks.set i { t with next := none, held := [] }, owed := p.owed ++ t.held }
  | retire {p : Pool} {i : Nat} {t : Task} {r : Response} : p.tasks[i]? = some t → t.next = some (.done r) →
      Does p none { p with tasks := p.tasks.set i { t with held := [] }, owed := p.owed ++ t.held }
  | settle {p : Pool} {g : Guard} {reply : Except CacheError Unit} {store : Store} {tally : Tally} : g ∈ p.owed →
      Answered S p.now p.now p.store p.tally (.operate (.release g.key g.token)) reply store tally →
      Does p (some ⟨none, ⟨p.now, p.store, .operate (.release g.key g.token), reply⟩⟩)
        { p with store := store, owed := p.owed.erase g }
  | other (p : Pool) {op : Operation} : S.others op →
      Does p (some ⟨none, ⟨p.now, p.store, .operate op, .ok (p.store.perform p.now op).1⟩⟩)
        { p with store := (p.store.perform p.now op).2 }

/-- What became of a store before the first request, with all deeds on the way, the latest first. -/
inductive Chronicle (store : Store) : List Deed → Pool → Prop
  | start : Chronicle store [] { store := store }
  | step {h : List Deed} {p q : Pool} {d : Option Deed} : Chronicle store h p → Pool.Does S p d q →
      Chronicle store (d.toList ++ h) q

variable {S} {store : Store} {h : List Deed} {p q : Pool}

theorem Pool.Does.step {d : Option Deed} (does : Pool.Does S p d q) : Pool.Step S p q := by
  cases does with
  | pass duration => exact .pass _ duration
  | arrive comes => exact .arrive _ comes
  | turn here next answered => exact .turn here next answered
  | drop here next suspends drops => exact .drop here next suspends drops
  | retire here next => exact .retire here next
  | settle mem answered => exact .settle mem answered
  | other other => exact .other _ other

theorem Pool.Step.does (step : Pool.Step S p q) : ∃ d, Pool.Does S p d q := by
  cases step with
  | pass duration => exact ⟨_, .pass _ duration⟩
  | arrive comes => exact ⟨_, .arrive _ comes⟩
  | turn here next answered => exact ⟨_, .turn here next answered⟩
  | drop here next suspends drops => exact ⟨_, .drop here next suspends drops⟩
  | retire here next => exact ⟨_, .retire here next⟩
  | settle mem answered => exact ⟨_, .settle mem answered⟩
  | other other => exact ⟨_, .other _ other⟩

theorem Chronicle.reach (chronicle : Chronicle S store h p) : Reach S store p := by
  induction chronicle with
  | start => exact .refl
  | step _ does ih => exact ih.tail does.step

/-- Everything that a pool can come to is chronicled. -/
theorem Reach.chronicle (reach : Reach S store p) : ∃ h, Chronicle S store h p := by
  induction reach with
  | refl => exact ⟨[], .start⟩
  | tail _ step ih =>
    obtain ⟨h, chronicle⟩ := ih
    obtain ⟨d, does⟩ := step.does
    exact ⟨_, chronicle.step does⟩

/-! ## Deeds in a chronicle -/

/-- **At every deed** there was a pool that it was done in, and what led to that pool is what the chronicle has
before. -/
theorem Chronicle.split {after before : List Deed} {d : Deed} (chronicle : Chronicle S store (after ++ d :: before) p) :
    ∃ q q', Chronicle S store before q ∧ Pool.Does S q (some d) q' ∧ ReflTransGen (Pool.Step S) q' p := by
  generalize whole : after ++ d :: before = h at chronicle
  induction chronicle generalizing after with
  | start => cases after <;> cases whole
  | @step h p q d' chronicle does ih =>
    cases d' with
    | none =>
      obtain ⟨q₁, q₂, led, done, rest⟩ := ih whole
      exact ⟨q₁, q₂, led, done, rest.tail does.step⟩
    | some d' =>
      cases after with
      | nil =>
        cases whole
        exact ⟨p, q, chronicle, does, .refl⟩
      | cons d₂ after =>
        injection whole with _ whole
        obtain ⟨q₁, q₂, led, done, rest⟩ := ih whole
        exact ⟨q₁, q₂, led, done, rest.tail does.step⟩

theorem Chronicle.does {d : Deed} (chronicle : Chronicle S store h p) (mem : d ∈ h) :
    ∃ q q', Pool.Does S q (some d) q' := by
  obtain ⟨after, before, rfl⟩ := List.mem_iff_append.1 mem
  obtain ⟨q, q', -, does, -⟩ := chronicle.split
  exact ⟨q, q', does⟩

/-- The part that the request at a place has in a chronicle. -/
def logOf (i : Nat) (h : List Deed) : List Program.Event :=
  h.filterMap fun d => if d.place = some i then some d.event else none

theorem logOf_append (i : Nat) (h h' : List Deed) : logOf i (h ++ h') = logOf i h ++ logOf i h' := List.filterMap_append

theorem logOf_cons_self (i : Nat) (e : Program.Event) (h : List Deed) : logOf i (⟨some i, e⟩ :: h) = e :: logOf i h :=
  List.filterMap_cons_some (if_pos rfl)

theorem logOf_cons_of_ne {i : Nat} {d : Deed} (ne : d.place ≠ some i) (h : List Deed) : logOf i (d :: h) = logOf i h :=
  List.filterMap_cons_none (if_neg ne)

theorem mem_logOf {i : Nat} {e : Program.Event} : e ∈ logOf i h ↔ ⟨some i, e⟩ ∈ h := by
  unfold logOf
  rw [List.mem_filterMap]
  constructor
  · rintro ⟨⟨place, e'⟩, mem, eq⟩
    dsimp only at eq
    split at eq
    · next same =>
      cases eq
      exact same ▸ mem
    · cases eq
  · exact fun mem => ⟨_, mem, if_pos rfl⟩

/-- An event in the part of a request stands in the chronicle as it stands there. -/
theorem exists_of_logOf {i : Nat} {later earlier : List Program.Event} {e : Program.Event}
    (part : logOf i h = later ++ e :: earlier) :
    ∃ after before, h = after ++ ⟨some i, e⟩ :: before ∧ logOf i after = later ∧ logOf i before = earlier := by
  obtain ⟨after, rest, rfl, first, part⟩ := List.filterMap_eq_append_iff.1 part
  obtain ⟨skipped, ⟨place, e'⟩, before, rfl, others, is, last⟩ := List.filterMap_eq_cons_iff.1 part
  dsimp only at is
  split at is
  · next same =>
    cases is
    subst same
    refine ⟨after ++ skipped, before, (List.append_assoc ..).symm, ?_, last⟩
    rw [logOf_append, show logOf i skipped = [] from List.filterMap_eq_nil_iff.2 others, List.append_nil]
    exact first
  · cases is

/-- What happened at a place, if a request has come there. -/
def logAt (tasks : List Task) (i : Nat) : List Program.Event := (tasks[i]?.map (·.log)).getD []

theorem logAt_of_getElem? {tasks : List Task} {i : Nat} {t : Task} (here : tasks[i]? = some t) :
    logAt tasks i = t.log := by
  rw [logAt, here]
  rfl

/-- A request in the place of one with the same log. -/
theorem logAt_set {tasks : List Task} {i : Nat} {t t' : Task} (here : tasks[i]? = some t) (same : t'.log = t.log)
    (j : Nat) : logAt (tasks.set i t') j = logAt tasks j := by
  unfold logAt
  rw [List.getElem?_set]
  split
  · next eq =>
    subst eq
    rw [here, if_pos (List.getElem?_eq_some_iff.1 here).1]
    exact same
  · rfl

/-- A request that has just come in has no log. -/
theorem logAt_append (tasks : List Task) {t : Task} (new : t.log = []) (j : Nat) :
    logAt (tasks ++ [t]) j = logAt tasks j := by
  unfold logAt
  rw [List.getElem?_append]
  split
  · rfl
  · next le =>
    rw [List.getElem?_eq_none (Nat.le_of_not_lt le)]
    cases j - tasks.length with
    | zero => exact new
    | succ => rfl

theorem Chronicle.logAt_eq (chronicle : Chronicle S store h p) (i : Nat) : logAt p.tasks i = logOf i h := by
  induction chronicle with
  | start => rfl
  | @step h p q d _ does ih =>
    cases does with
    | pass | settle | other => exact ih
    | arrive => exact (logAt_append _ rfl i).trans ih
    | @turn j t action resume reply store' tally' here next answered =>
      rw [Option.toList_some, List.singleton_append]
      by_cases same : j = i
      · subst same
        rw [logOf_cons_self, ← ih, logAt_of_getElem? here]
        exact logAt_of_getElem? (List.getElem?_set_self (List.getElem?_eq_some_iff.1 here).1)
      · rw [logOf_cons_of_ne (fun eq => same (Option.some.inj eq)), ← ih]
        unfold logAt
        rw [List.getElem?_set_ne same]
    | drop here | retire here =>
      refine (logAt_set here ?_ i).trans ih
      rfl

/-- **The log of a request** is its part of the chronicle. -/
theorem Chronicle.log (chronicle : Chronicle S store h p) {i : Nat} {t : Task} (here : p.tasks[i]? = some t) :
    t.log = logOf i h := (logAt_of_getElem? here).symm.trans (chronicle.logAt_eq i)

/-- An event of a log is a deed of the chronicle. -/
theorem Chronicle.deed (chronicle : Chronicle S store h p) {i : Nat} {t : Task} (here : p.tasks[i]? = some t)
    {e : Program.Event} (mem : e ∈ t.log) : ⟨some i, e⟩ ∈ h :=
  mem_logOf.1 (chronicle.log here ▸ mem)

/-! ## Requests in the course of time -/

/-- What became of a request. -/
structure Task.Continues (t t' : Task) : Prop where
  visit : t'.visit = t.visit
  gone : t.Over → t'.Over
  log : t.log <:+ t'.log

theorem Task.Continues.refl (t : Task) : t.Continues t := ⟨rfl, id, List.suffix_rfl⟩

theorem Task.Continues.trans {t t' t'' : Task} (a : t.Continues t') (b : t'.Continues t'') : t.Continues t'' :=
  ⟨b.visit.trans a.visit, b.gone ∘ a.gone, a.log.trans b.log⟩

theorem Pool.continues_set {i j : Nat} {t t' u : Task} (here : p.tasks[i]? = some t) (goes : t.Continues t')
    (there : p.tasks[j]? = some u) : ∃ u', (p.tasks.set i t')[j]? = some u' ∧ u.Continues u' := by
  rw [List.getElem?_set]
  split
  · next eq =>
    subst eq
    rw [if_pos (List.getElem?_eq_some_iff.1 here).1]
    cases here.symm.trans there
    exact ⟨t', rfl, goes⟩
  · exact ⟨u, there, .refl u⟩

theorem Pool.Step.continues (step : Pool.Step S p q) {j : Nat} {u : Task} (there : p.tasks[j]? = some u) :
    ∃ u', q.tasks[j]? = some u' ∧ u.Continues u' := by
  cases step with
  | pass | settle | other => exact ⟨u, there, .refl u⟩
  | arrive =>
    refine ⟨u, ?_, .refl u⟩
    rw [List.getElem?_append_left (List.getElem?_eq_some_iff.1 there).1]
    exact there
  | turn here next =>
    exact Pool.continues_set here ⟨rfl, fun gone => absurd next (gone _ _), List.suffix_cons _ _⟩ there
  | drop here next => exact Pool.continues_set here ⟨rfl, fun _ _ _ => nofun, List.suffix_rfl⟩ there
  | retire here next => exact Pool.continues_set here ⟨rfl, id, List.suffix_rfl⟩ there

/-- **A request keeps its place**, its visit and what is in its log, and stays over once it is. -/
theorem Pool.continues (steps : ReflTransGen (Pool.Step S) p q) {j : Nat} {u : Task} (there : p.tasks[j]? = some u) :
    ∃ u', q.tasks[j]? = some u' ∧ u.Continues u' := by
  induction steps with
  | refl => exact ⟨u, there, .refl u⟩
  | tail _ step ih =>
    obtain ⟨u', there', goes⟩ := ih
    obtain ⟨u'', there'', goes'⟩ := step.continues there'
    exact ⟨u'', there'', goes.trans goes'⟩

/-- Whoever did a deed of the chronicle is still in the pool. -/
theorem Chronicle.doer (chronicle : Chronicle S store h p) {i : Nat} {e : Program.Event} (mem : ⟨some i, e⟩ ∈ h) :
    ∃ t, p.tasks[i]? = some t ∧ e ∈ t.log := by
  obtain ⟨after, before, rfl⟩ := List.mem_iff_append.1 mem
  obtain ⟨q, q', -, does, rest⟩ := chronicle.split
  cases does with
  | @turn _ t _ _ _ _ _ here =>
    have lt := (List.getElem?_eq_some_iff.1 here).1
    obtain ⟨t', here', goes⟩ := Pool.continues rest (List.getElem?_set_self lt)
    exact ⟨t', here', goes.log.subset List.mem_cons_self⟩

/-- What a request was answered is an answer that its surroundings may give. -/
theorem Chronicle.answered (chronicle : Chronicle S store h p) {i : Nat} {e : Program.Event} (mem : ⟨some i, e⟩ ∈ h) :
    ∃ since tally store' tally', Answered S e.now since e.store tally e.action e.reply store' tally' := by
  obtain ⟨q, q', does⟩ := chronicle.does mem
  cases does with
  | turn _ _ answered => exact ⟨_, _, _, _, answered⟩

/-! ## The store -/

/-- What a deed did to the store: an operation, or nothing. -/
theorem Pool.Does.effect {d : Deed} (does : Pool.Does S p (some d) q) :
    d.event.now = p.now ∧ q.now = p.now ∧
      ((∃ op, d.event = ⟨p.now, p.store, .operate op, .ok (p.store.perform p.now op).1⟩ ∧
          q.store = (p.store.perform p.now op).2) ∨
        ((∀ op, ¬ d.event.Carried op) ∧ q.store = p.store)) := by
  cases does with
  | @turn i t action resume reply store' tally' here next answered =>
    refine ⟨rfl, rfl, ?_⟩
    cases answered with
    | operate op => exact Or.inl ⟨op, rfl, rfl⟩
    | _ => exact Or.inr ⟨fun op ⟨_, _, _, eq⟩ => (nomatch eq), rfl⟩
  | settle mem answered =>
    refine ⟨rfl, rfl, ?_⟩
    cases answered with
    | operate => exact Or.inl ⟨_, rfl, rfl⟩
    | fault => exact Or.inr ⟨fun op ⟨_, _, _, eq⟩ => (nomatch eq), rfl⟩
  | other other => exact ⟨rfl, rfl, Or.inl ⟨_, rfl, rfl⟩⟩

/-- A step without a deed leaves the store alone. -/
theorem Pool.Does.quiet (does : Pool.Does S p none q) : q.store = p.store ∧ p.now ≤ q.now := by
  cases does with
  | pass duration => exact ⟨rfl, Nat.le_add_right ..⟩
  | arrive | drop | retire => exact ⟨rfl, Nat.le_refl _⟩

/-- **Time does not go back** from one deed to the next. -/
theorem Chronicle.sorted (chronicle : Chronicle S store h p) :
    h.Pairwise (fun d d' => d'.event.now ≤ d.event.now) ∧ ∀ d ∈ h, d.event.now ≤ p.now := by
  induction chronicle with
  | start => exact ⟨.nil, fun d mem => nomatch mem⟩
  | @step h p q d _ does ih =>
    obtain ⟨sorted, le⟩ := ih
    cases d with
    | none => exact ⟨sorted, fun d mem => Nat.le_trans (le d mem) does.quiet.2⟩
    | some d =>
      obtain ⟨now, same, -⟩ := does.effect
      rw [Option.toList_some, List.singleton_append, same]
      refine ⟨List.pairwise_cons.2 ⟨fun d' mem => now ▸ le d' mem, sorted⟩, fun d' mem => ?_⟩
      rcases List.mem_cons.1 mem with rfl | mem
      · exact Nat.le_of_eq now
      · exact le d' mem

/-- A deed of an earlier instant stands before. -/
theorem Chronicle.earlier {after before : List Deed} {d d' : Deed}
    (chronicle : Chronicle S store (after ++ d :: before) p) (mem : d' ∈ after ++ d :: before)
    (lt : d'.event.now < d.event.now) : d' ∈ before := by
  obtain ⟨-, -, later⟩ := List.pairwise_append.1 chronicle.sorted.1
  rcases List.mem_append.1 mem with mem | mem
  · exact absurd lt (Nat.not_lt_of_le (later d' mem d List.mem_cons_self))
  · rcases List.mem_cons.1 mem with rfl | mem
    · exact absurd lt (Nat.lt_irrefl _)
    · exact mem

theorem Chronicle.covered {capacity : Nat} (create : Store.create capacity = .ok store)
    (chronicle : Chronicle S store h p) : Store.Covered [] p.store := by
  induction chronicle with
  | start => exact Store.covered_create create
  | @step h p q d _ does ih =>
    cases d with
    | none => exact does.quiet.1 ▸ ih
    | some d =>
      obtain ⟨-, -, ⟨op, -, eq⟩ | ⟨-, eq⟩⟩ := does.effect
      · exact eq ▸ ih.perform p.now op
      · exact eq ▸ ih

/-- **What the store holds** was written by a deed, and no deed since has removed it. -/
theorem Chronicle.written {capacity : Nat} (create : Store.create capacity = .ok store)
    (chronicle : Chronicle S store h p) {key : String} {e : Entry} (here : p.store.Holds key e) :
    ∃ after d before, h = after ++ d :: before ∧ d.event.Carried (.set key e) ∧
      ∀ d' ∈ after, ∀ op, d'.event.Carried op → ¬ op.Removes key e := by
  induction chronicle with
  | start => exact absurd here (Store.not_holds_create create)
  | @step h p q d chronicle does ih =>
    -- what was there before and no deed has removed
    have older : p.store.Holds key e →
        (∀ d' ∈ d.toList, ∀ op, d'.event.Carried op → ¬ op.Removes key e) → ∃ after d' before,
          d.toList ++ h = after ++ d' :: before ∧ d'.event.Carried (.set key e) ∧
            ∀ d' ∈ after, ∀ op, d'.event.Carried op → ¬ op.Removes key e := by
      intro before outlived
      obtain ⟨after, d', before, rfl, wrote, since⟩ := ih before
      refine ⟨d.toList ++ after, d', before, (List.append_assoc ..).symm, wrote, fun d₂ mem => ?_⟩
      rcases List.mem_append.1 mem with mem | mem
      · exact outlived d₂ mem
      · exact since d₂ mem
    cases d with
    | none => exact older (does.quiet.1 ▸ here) (by simp)
    | some d =>
      obtain ⟨-, -, ⟨op, event, eq⟩ | ⟨none, eq⟩⟩ := does.effect
      · have carried : d.event.Carried op := ⟨_, _, _, event⟩
        rw [eq] at here
        rcases Store.perform_stands (chronicle.covered create) here with rfl | ⟨before, stands⟩
        · exact ⟨[], d, h, rfl, carried, by simp⟩
        · refine older before fun d' mem op' carried' => ?_
          rw [Option.toList_some, List.mem_singleton] at mem
          subst mem
          exact carried.unique carried' ▸ stands
      · refine older (eq ▸ here) fun d' mem op' carried => ?_
        rw [Option.toList_some, List.mem_singleton] at mem
        subst mem
        exact absurd carried (none op')

/-- **What a look-up finds** is live, and was written by a deed that nothing since has removed. -/
theorem Chronicle.found {capacity : Nat} (create : Store.create capacity = .ok store) {after before : List Deed}
    {place : Option Nat} {now : Instant} {s : Store} {key : String} {e : Entry}
    (chronicle : Chronicle S store (after ++ ⟨place, ⟨now, s, .operate (.get key), .ok (some e)⟩⟩ :: before) p) :
    now < e.deadline ∧ ∃ between d first, before = between ++ d :: first ∧ d.event.Carried (.set key e) ∧
      ∀ d' ∈ between, ∀ op, d'.event.Carried op → ¬ op.Removes key e := by
  obtain ⟨q, q', led, does, -⟩ := chronicle.split
  obtain ⟨rfl, -, ⟨op, event, -⟩ | ⟨none, -⟩⟩ := does.effect
  · injection event with _ same action reply
    injection action with action
    subst same action
    have found := (Except.ok.inj (eq_of_heq reply)).symm
    exact ⟨Store.get_live found, led.written create (Store.get_found found)⟩
  · exact absurd ⟨_, _, _, rfl⟩ (none _)

/-- What is done to the store at no request's place is done by somebody else, or releases a lock that is owed. -/
theorem Pool.Does.nobody {e : Program.Event} (does : Pool.Does S p (some ⟨none, e⟩) q) {op : Operation}
    (carried : e.Carried op) : S.others op ∨ ∃ g ∈ p.owed, op = .release g.key g.token := by
  cases does with
  | settle mem =>
    obtain ⟨_, _, _, eq⟩ := carried
    injection eq with _ _ action
    injection action with action
    exact Or.inr ⟨_, mem, action.symm⟩
  | other other =>
    obtain ⟨_, _, _, eq⟩ := carried
    injection eq with _ _ action
    injection action with action
    exact Or.inl (action ▸ other)

/-- What nobody else does, and is no release, was done for a request. -/
theorem Chronicle.requester (chronicle : Chronicle S store h p) {d : Deed} (mem : d ∈ h) {op : Operation}
    (carried : d.event.Carried op) (other : ¬ S.others op) (keeps : ∀ key token, op ≠ .release key token) :
    ∃ i, d.place = some i := by
  obtain ⟨place, e⟩ := d
  obtain ⟨q, q', does⟩ := chronicle.does mem
  cases place with
  | some i => exact ⟨i, rfl⟩
  | none =>
    rcases does.nobody carried with others | ⟨g, -, eq⟩
    · exact absurd others other
    · exact absurd eq (keeps _ _)

/-! ## The history of the store -/

/-- The call that an operation is; reading the counters is none. -/
def Operation.call? : Operation → Option Store.Call
  | get key => some (.get key)
  | set key e => some (.set key e)
  | delete key => some (.delete key)
  | acquire key timeout => some (.acquire key timeout)
  | release key token => some (.release key token)
  | invalidateTag tag => some (.invalidateTag tag)
  | clear => some .clear
  | purge => some .cleanup
  | stats => none
  | resetStats => some .resetStats

/-- What an event tells about the store. -/
def Program.Event.call? : Program.Event → Option Store.Event
  | ⟨now, store, .operate op, .ok _⟩ => op.call?.map fun call => ⟨now, call, (store.call now call).1⟩
  | _ => none

/-- The calls of all deeds. -/
def calls (h : List Deed) : List Store.Event := h.filterMap (·.event.call?)

theorem calls_cons_none {d : Deed} (none : d.event.call? = .none) (h : List Deed) : calls (d :: h) = calls h :=
  List.filterMap_cons_none none

theorem calls_cons_some {d : Deed} {e : Store.Event} (some : d.event.call? = .some e) (h : List Deed) :
    calls (d :: h) = e :: calls h := List.filterMap_cons_some some

theorem perform_call (s : Store) (now : Instant) (op : Operation) :
    (s.perform now op).2 = (op.call?.map fun call => (s.call now call).2).getD s := by
  cases op <;> rfl

theorem Program.Event.call?_of_not_carried {e : Program.Event} (none : ∀ op, ¬ e.Carried op) : e.call? = .none := by
  unfold call?
  split
  · exact absurd ⟨_, _, _, rfl⟩ (none _)
  · rfl

/-- **The calls of a chronicle** are a history of the store. -/
theorem Chronicle.history {capacity : Nat} (create : Store.create capacity = .ok store)
    (chronicle : Chronicle S store h p) :
    Store.History capacity (calls h) p.store ∧ Store.latest (calls h) ≤ p.now := by
  induction chronicle with
  | start => exact ⟨.create create, Nat.le_refl _⟩
  | @step h p q d _ does ih =>
    obtain ⟨history, le⟩ := ih
    cases d with
    | none =>
      obtain ⟨eq, later⟩ := does.quiet
      exact ⟨eq ▸ history, Nat.le_trans le later⟩
    | some d =>
      obtain ⟨-, now, ⟨op, event, eq⟩ | ⟨none, eq⟩⟩ := does.effect
      · rw [now, eq, perform_call, Option.toList_some, List.singleton_append]
        have call : d.event.call? = op.call?.map fun call => ⟨p.now, call, (p.store.call p.now call).1⟩ := by
          rw [event]
          rfl
        cases is : op.call? with
        | none =>
          rw [is] at call
          rw [calls_cons_none call]
          exact ⟨history, le⟩
        | some c =>
          rw [is] at call
          rw [calls_cons_some call]
          exact ⟨history.event c le, Nat.le_refl _⟩
      · rw [now, eq, Option.toList_some, List.singleton_append,
          calls_cons_none (Program.Event.call?_of_not_carried none)]
        exact ⟨history, le⟩

end Chronicles

end ResponseCache
