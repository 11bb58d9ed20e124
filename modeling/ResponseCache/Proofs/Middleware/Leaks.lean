import ResponseCache.Proofs.Middleware.Exclusion

/-!
# No lock is left behind

A request that was given a lock has it (`Procedure.Has`) until it gives it back: at first the lock is to be taken on,
then the guard is held, at last the lock is to be released. While a request has a lock it has released none, and when
it is done it has none. What a request holds that is given up is owed. So every lock of a store is had by a request
under way or owed for one that was given up (`Tidy`, which every step keeps), and that is the law of `no_lock_leak`.
-/

namespace ResponseCache

open Http
open Program (Event Heard Kept heldBy)
open Procedure

/-! ## What operations leave of the locks -/

namespace Store

variable {s : Store} {now : Instant} {op : Operation} {key : String} {l : Lock}

/-- A lock that is there after an operation was taken by it, or was there before and not released. -/
theorem lock_of_perform (here : (s.perform now op).2.locks[key]? = some l) :
    (∃ timeout, op = .acquire key timeout ∧ (s.acquire now key timeout).1 = some l.token) ∨
      (s.locks[key]? = some l ∧ op ≠ .release key l.token) := by
  cases op with
  | acquire key' timeout =>
    simp only [Store.perform, Store.acquire] at here ⊢
    split at here
    · exact .inr ⟨here, by rintro ⟨⟩⟩
    · next free =>
      rw [Std.TreeMap.getElem?_insert] at here
      split at here
      · next same =>
        cases Std.compare_eq_iff_eq.1 same
        cases here
        exact .inl ⟨timeout, rfl, by rw [if_neg free]⟩
      · exact .inr ⟨here, by rintro ⟨⟩⟩
  | release key' token =>
    refine .inr ?_
    simp only [Store.perform, Store.release] at here
    split at here
    · next l' found =>
      split at here
      · rw [Std.TreeMap.getElem?_erase] at here
        split at here
        · cases here
        · next other => exact ⟨here, fun eq => other (Std.compare_eq_iff_eq.2 (by injection eq))⟩
      · next stale =>
        refine ⟨here, fun eq => ?_⟩
        cases eq
        cases found.symm.trans here
        exact stale rfl
    · next none =>
      refine ⟨here, fun eq => ?_⟩
      cases eq
      cases none.symm.trans here
  | purge =>
    refine .inr ⟨?_, by rintro ⟨⟩⟩
    simp only [Store.perform, locks_cleanup, Std.TreeMap.getElem?_filter] at here
    exact (Option.pfilter_eq_some_iff.1 here).1
  | get key' => exact .inr ⟨(SameLocks.get s now key').locks ▸ here, by rintro ⟨⟩⟩
  | set key' e => exact .inr ⟨(SameLocks.set s key' e).locks ▸ here, by rintro ⟨⟩⟩
  | delete key' => exact .inr ⟨(SameLocks.delete s key').locks ▸ here, by rintro ⟨⟩⟩
  | invalidateTag tag => exact .inr ⟨(SameLocks.invalidateTag s tag).locks ▸ here, by rintro ⟨⟩⟩
  | clear | stats | resetStats => exact .inr ⟨here, by rintro ⟨⟩⟩

/-- A release frees no lock but that of its key and token. -/
theorem release_spares {key' : String} {token : Token} (here : s.locks[key]? = some l)
    (other : key' ≠ key ∨ l.token ≠ token) : (s.release key' token).2.locks[key]? = some l := by
  unfold Store.release
  split
  · next l' found =>
    split
    · next same =>
      have ne : key' ≠ key := fun eq => by
        subst eq
        cases found.symm.trans here
        exact other.elim (· rfl) (· same)
      show (s.locks.erase key')[key]? = some l
      rw [Std.TreeMap.getElem?_erase, if_neg fun eq => ne (Std.compare_eq_iff_eq.1 eq)]
      exact here
    · exact here
  · exact here

end Store

/-! ## Having a lock -/

namespace Procedure

variable {settings : Settings} {v : Visit} {g : Guard} {log : List Event} {action : Action}

/-- By its log a request has a lock: it was just given it, it holds its guard, or it has just given up the guard. -/
inductive Has (g : Guard) (log : List Event) : Prop
  | given : due log = some (.hold g) → Has g log
  | held : g ∈ heldBy log → Has g log
  | returning : due log = some (.operate (.release g.key g.token)) → Has g log

/-- What is due is done. -/
theorem Demands.eq_due (demanded : Demands settings v log action) {next : Action} (is : due log = some next) :
    action = next := by
  cases action with
  | operate op =>
    cases op with
    | get key => exact nomatch demanded.1.symm.trans is
    | set key e =>
      obtain ⟨-, -, -, _, _, _, ⟨_, _, _, rfl⟩, -⟩ := demanded
      cases is
    | acquire key timeout =>
      obtain ⟨-, -, _, _, rfl⟩ := demanded
      cases is
    | release key token => exact Option.some.inj (Eq.trans (Eq.symm demanded) is)
    | _ => exact demanded.elim
  | hold g => exact Option.some.inj (Eq.trans (Eq.symm demanded) is)
  | disarm g => exact nomatch demanded.1.symm.trans is
  | handle | count => exact nomatch demanded.1.symm.trans is
  | clock | sleep => exact nomatch (Eq.symm demanded).trans is
  | readTally | clearTally => exact demanded.elim

/-- **A lock is had** until it is given back. -/
theorem Has.cons {now : Instant} {store : Store} {reply : action.Reply} (has : Has g log)
    (prompt : ∀ next, due log = some next → action = next) (keeps : action ≠ .operate (.release g.key g.token)) :
    Has g (⟨now, store, action, reply⟩ :: log) := by
  cases has with
  | given next =>
    cases prompt _ next
    exact .held List.mem_cons_self
  | held mem =>
    by_cases gives : action = .disarm g
    · cases gives
      exact .returning rfl
    · exact .held (Program.mem_holding_of_mem mem gives)
  | returning next => exact absurd (prompt _ next) keeps

section Logs

variable (kept : Kept (contract settings v) log)
include kept

/-- Who has a lock was given it. -/
theorem Has.acquired (has : Has g log) : ∃ now store,
    (⟨now, store, .operate (.acquire g.key (v.timeout settings)), .ok (some g.token)⟩ : Event) ∈ log := by
  cases has with
  | given next =>
    obtain ⟨now, store, timeout, rest, rfl⟩ := given_of_due next
    obtain ⟨-, rfl, -⟩ := kept.1
    exact ⟨now, store, List.mem_cons_self⟩
  | held mem => exact acquired_of_hold kept (Program.heard_of_mem_heldBy mem)
  | returning next =>
    obtain ⟨now, store, rest, rfl⟩ := disarmed_of_due next
    obtain ⟨-, held, -⟩ := kept.1
    have took : Heard (.hold g) () rest := Program.heard_of_mem_heldBy (held ▸ List.mem_singleton_self g)
    exact acquired_of_hold kept (took.mono (List.subset_cons_self _ _))

omit kept in
/-- Who has released a lock has none. -/
theorem not_has_of_released : ∀ {log : List Event}, Kept (contract settings v) log → ∀ {key : String} {token : Token}
    {reply : Except CacheError Unit}, Heard (.operate (.release key token)) reply log →
      due log = none ∧ heldBy log = []
  | ⟨now, store, action, reply⟩ :: log, ⟨demanded, _, kept⟩, key, token, result, ⟨now', store', mem⟩ => by
    rcases List.mem_cons.1 mem with same | before
    · injection same with _ _ same
      subst same
      obtain ⟨_, _, rest, rfl⟩ := disarmed_of_due (g := ⟨key, token⟩) demanded
      obtain ⟨-, held, -⟩ := kept.1
      refine ⟨rfl, ?_⟩
      show (heldBy rest).erase _ = []
      rw [held, List.erase_cons_head]
    · obtain ⟨settled, free⟩ := not_has_of_released kept ⟨now', store', before⟩
      cases action with
      | operate op =>
        cases op with
        | acquire key' timeout =>
          obtain ⟨-, -, _, _, rfl⟩ := demanded
          cases List.mem_singleton.1 before
        | _ => exact ⟨rfl, free⟩
      | hold g => cases settled.symm.trans demanded
      | disarm g => cases free.symm.trans demanded.2.1
      | _ => exact ⟨rfl, free⟩

/-- Who has a lock has released none. -/
theorem Has.unreleased (has : Has g log) (key : String) (token : Token) (reply : Except CacheError Unit) :
    ¬ Heard (.operate (.release key token)) reply log := by
  intro released
  obtain ⟨settled, free⟩ := not_has_of_released kept released
  cases has with
  | given next => cases settled.symm.trans next
  | held mem => exact nomatch free ▸ mem
  | returning next => cases settled.symm.trans next

end Logs

/-- Who is done has no lock. -/
theorem Finished.not_has {r : Http.Response} (finished : Finished settings v log r) : ¬ Has g log := by
  intro has
  cases has with
  | given next => cases finished.settled.symm.trans next
  | held mem => exact nomatch finished.free ▸ mem
  | returning next => cases finished.settled.symm.trans next

end Procedure

/-! ## Locks and requests -/

/-- A request was given up after it had given up a guard, and before it released the lock. -/
def Task.BrokenOff (g : Guard) (t : Task) : Prop :=
  t.next = none ∧ due t.log = some (.operate (.release g.key g.token))

/-- A lock is had by a request that was not given up, or owed, or was lost by a request that was broken off. -/
inductive Accounted (tasks : List Task) (owed : List Guard) (g : Guard) : Prop
  | had : (∃ t ∈ tasks, t.next ≠ none ∧ Has g t.log) → Accounted tasks owed g
  | owed : g ∈ owed → Accounted tasks owed g
  | lost : (∃ t ∈ tasks, t.BrokenOff g) → Accounted tasks owed g

/-- The locks of a pool are accounted for, requests that are done hold no guard, and what is owed was taken on by a
request that was given up. -/
structure Tidy (p : Pool) : Prop where
  locks : ∀ key l, p.store.locks[key]? = some l → Accounted p.tasks p.owed ⟨key, l.token⟩
  free : ∀ t ∈ p.tasks, ∀ r, t.next = some (.done r) → t.held = []
  owed : ∀ g ∈ p.owed, ∃ t ∈ p.tasks, t.next = none ∧ Heard (.hold g) () t.log

/-- A request stays, or it is the one that is replaced. -/
theorem eq_or_mem_set {tasks : List Task} {i : Nat} {t u : Task} (here : tasks[i]? = some t) (mem : u ∈ tasks)
    (t' : Task) : u = t ∨ u ∈ tasks.set i t' := by
  obtain ⟨j, there⟩ := List.mem_iff_getElem?.1 mem
  by_cases same : i = j
  · subst same
    exact .inl (Option.some.inj (there.symm.trans here))
  · exact .inr (List.mem_of_getElem? ((List.getElem?_set_ne same).trans there))

/-- What holds of some request still does when one is replaced by another that has as much. -/
theorem exists_mem_set {tasks : List Task} {i : Nat} {t t' : Task} (here : tasks[i]? = some t) {P : Task → Prop}
    (follows : P t → P t') : (∃ u ∈ tasks, P u) → ∃ u ∈ tasks.set i t', P u := by
  rintro ⟨u, mem, holds⟩
  rcases eq_or_mem_set here mem t' with rfl | mem
  · exact ⟨t', List.mem_set (List.getElem?_eq_some_iff.1 here).1 t', follows holds⟩
  · exact ⟨u, mem, holds⟩

section Steps

variable {S : Surroundings} (sound : ∀ key token, ¬ S.mayFail (.release key token))
include sound

/-- A lock that is there after an action was taken by it, or was there before and not released. -/
theorem Answered.lock {now since : Instant} {store store' : Store} {tally tally' : Tally} {a : Action} {reply : a.Reply}
    (answered : Answered S now since store tally a reply store' tally') {key : String} {l : Lock}
    (here : store'.locks[key]? = some l) :
    (∃ timeout, (⟨now, store, a, reply⟩ : Event) = ⟨now, store, .operate (.acquire key timeout), .ok (some l.token)⟩) ∨
      (store.locks[key]? = some l ∧ a ≠ .operate (.release key l.token)) := by
  cases answered with
  | operate op =>
    rcases Store.lock_of_perform here with ⟨timeout, rfl, got⟩ | ⟨before, keeps⟩
    · refine .inl ⟨timeout, ?_⟩
      rw [← got]
      rfl
    · exact .inr ⟨before, fun eq => keeps (by injection eq)⟩
  | fault e may =>
    refine .inr ⟨here, fun eq => ?_⟩
    cases eq
    exact sound _ _ may
  | _ => exact .inr ⟨here, nofun⟩

variable (others : ∀ op, S.others op → ∀ key timeout, op ≠ .acquire key timeout)
include others

/-- **Every step** keeps the locks accounted for. -/
theorem Tidy.step {p q : Pool} (tidy : Tidy p)
    (conforms : ∀ t ∈ p.tasks, t.Conforms S (contract S.settings t.visit) (Finished S.settings))
    (orderly : ∀ t ∈ p.tasks, t.Orderly p.now) (step : Pool.Step S p q) : Tidy q := by
  obtain ⟨locks, free, owed⟩ := tidy
  cases step with
  | pass => exact ⟨locks, free, owed⟩
  | arrive =>
    have more : ∀ {P : Task → Prop} {t : Task}, (∃ u ∈ p.tasks, P u) → ∃ u ∈ p.tasks ++ [t], P u :=
      fun ⟨u, mem, holds⟩ => ⟨u, List.mem_append_left _ mem, holds⟩
    refine ⟨fun key l here => ?_, fun t mem r done => ?_, fun g mem => more (owed g mem)⟩
    · cases locks key l here with
      | had has => exact .had (more has)
      | owed mem => exact .owed mem
      | lost broken => exact .lost (more broken)
    · rcases List.mem_append.1 mem with mem | mem
      · exact free t mem r done
      · cases List.mem_singleton.1 mem
        rfl
  | @turn i t action resume reply store' tally' here next answered =>
    have mem := List.mem_of_getElem? here
    obtain ⟨demanded, rest⟩ := (conforms t mem).meets _ next
    have waits : t.next ≠ none := fun none => nomatch none.symm.trans next
    refine ⟨fun key l there => ?_, fun u mem' r done => ?_, fun g owes => ?_⟩
    · rcases answered.lock sound there with ⟨timeout, given⟩ | ⟨before, keeps⟩
      · refine .had ⟨_, List.mem_set (List.getElem?_eq_some_iff.1 here).1 _, nofun, .given ?_⟩
        rw [given]
        rfl
      · cases locks key l before with
        | had has =>
          refine .had (exists_mem_set here (fun ⟨_, has⟩ => ⟨nofun, ?_⟩) has)
          exact has.cons (fun _ => demanded.eq_due) keeps
        | owed mem => exact .owed mem
        | lost broken => exact .lost (exists_mem_set here (fun broken => absurd broken.1 waits) broken)
    · rcases List.mem_or_eq_of_mem_set mem' with mem' | rfl
      · exact free u mem' r done
      · -- what is held is what the log says, and that is nothing when a request is done
        have held : t.held = heldBy t.log := (orderly t mem).held.resolve_left fun gone => gone _ _ next
        have finished := rest p.now p.store reply trivial
        rw [Option.some.inj done] at finished
        show action.holding t.held = []
        rw [held]
        exact finished.free
    · exact exists_mem_set here (fun gone => absurd gone.1 waits) (owed g owes)
  | @drop i t action resume here next suspends drops =>
    have mem := List.mem_of_getElem? here
    obtain ⟨demanded, -⟩ := (conforms t mem).meets _ next
    have lt := (List.getElem?_eq_some_iff.1 here).1
    have waits : t.next ≠ none := fun none => nomatch none.symm.trans next
    have held : t.held = heldBy t.log := (orderly t mem).held.resolve_left fun gone => gone _ _ next
    refine ⟨fun key l there => ?_, fun u mem' r done => ?_, fun g owes => ?_⟩
    · cases locks key l there with
      | had has =>
        obtain ⟨u, mem', going, has⟩ := has
        rcases eq_or_mem_set here mem' { t with next := none, held := [] } with rfl | stays
        · -- a request that was just given its lock is not given up
          cases has with
          | given due =>
            cases demanded.eq_due due
            cases suspends
          | held owes => exact .owed (List.mem_append_right _ (held ▸ owes))
          | returning due => exact .lost ⟨_, List.mem_set lt _, rfl, due⟩
        · exact .had ⟨u, stays, going, has⟩
      | owed mem => exact .owed (List.mem_append_left _ mem)
      | lost broken => exact .lost (exists_mem_set here (fun broken => absurd broken.1 waits) broken)
    · rcases List.mem_or_eq_of_mem_set mem' with mem' | rfl
      · exact free u mem' r done
      · rfl
    · rcases List.mem_append.1 owes with owes | owes
      · exact exists_mem_set here (fun gone => absurd gone.1 waits) (owed g owes)
      · exact ⟨_, List.mem_set lt _, rfl, (orderly t mem).took g owes⟩
  | @retire i t r here next =>
    have mem := List.mem_of_getElem? here
    have none : t.held = [] := free t mem r next
    refine ⟨fun key l there => ?_, fun u mem' r done => ?_, fun g owes => ?_⟩
    · cases locks key l there with
      | had has => exact .had (exists_mem_set here id has)
      | owed mem => exact .owed (List.mem_append_left _ mem)
      | lost broken => exact .lost (exists_mem_set here id broken)
    · rcases List.mem_or_eq_of_mem_set mem' with mem' | rfl
      · exact free u mem' r done
      · rfl
    · rw [none, List.append_nil] at owes
      exact exists_mem_set here id (owed g owes)
  | @settle g reply store' tally' mem answered =>
    refine ⟨fun key l there => ?_, free, fun g' owes => owed g' (List.mem_of_mem_erase owes)⟩
    rcases answered.lock sound there with ⟨timeout, given⟩ | ⟨before, keeps⟩
    · cases given
    · cases locks key l before with
      | had has => exact .had has
      | owed mem => exact .owed ((List.mem_erase_of_ne fun eq => keeps (by rw [← eq])).2 mem)
      | lost broken => exact .lost broken
  | @other op other =>
    refine ⟨fun key l there => ?_, free, owed⟩
    rcases Store.lock_of_perform there with ⟨timeout, rfl, -⟩ | ⟨before, -⟩
    · exact absurd rfl (others _ other key timeout)
    · exact locks key l before

theorem Reach.tidy {capacity : Nat} {store : Store} (create : Store.create capacity = .ok store) {p : Pool}
    (reach : Reach S store p) : Tidy p := by
  induction reach with
  | refl =>
    refine ⟨fun key l here => ?_, fun t mem => (nomatch mem), fun g mem => nomatch mem⟩
    obtain ⟨since, last, -⟩ := (Store.traced_create create).held key l here
    cases last
  | tail reach step ih => exact ih.step sound others (Procedure.conforms reach) (Reach.orderly reach) step

end Steps

/-! ## The law -/

section Tokens

variable {S : Surroundings} {capacity : Nat} {store : Store} (create : Store.create capacity = .ok store)
  {h : List Deed} {p : Pool} (chronicle : Chronicle S store h p) (few : (Store.tokens (calls h)).length < 2 ^ 64)
include create chronicle few

/-- **A request releases its own lock**, the one that it was given. -/
theorem Chronicle.releases_own {i : Nat} {e : Event} {key : String} {token : Token} (released : ⟨some i, e⟩ ∈ h)
    (carried : e.Carried (.release key token)) {d : Deed} (mem : d ∈ h) {key' : String} {l : Lock}
    (gives : d.Gives key' l) (same : l.token = token) : d.place = some i := by
  obtain ⟨t, here, heard⟩ := chronicle.doer released
  obtain ⟨now, s, result, rfl⟩ := carried
  have kept := (Procedure.conforms chronicle.reach t (List.mem_of_getElem? here)).kept
  obtain ⟨rest, part, held, -⟩ := disarmed_of_released kept heard
  have took : Heard (.hold ⟨key, token⟩) () rest :=
    Program.heard_of_mem_heldBy (held ▸ List.mem_singleton_self (⟨key, token⟩ : Guard))
  exact chronicle.taker create few here (took.mono part.subset) mem gives same

end Tokens

/-- **No lock is left behind.**

Let requests come and go in any way over a store that is empty at first, never fails a release, and whose locks nobody
else takes, and let none be given up just between giving up its guard and releasing the lock. Every lock there belongs
to a request that was given it, and that is under way and has not released it, or was given up and is owed the release.
So when all requests are over and nothing is owed, no lock is left, however the requests ended. And while fewer than
2 ^ 64 locks have been taken, what a request releases, and what is owed for one that was given up, frees no lock that
was given to another. -/
theorem no_lock_leak {S : Surroundings} (sound : ∀ key token, ¬ S.mayFail (.release key token))
    (others : ∀ op, S.others op → ∀ key timeout, op ≠ .acquire key timeout) {capacity : Nat} {store : Store}
    (create : Store.create capacity = .ok store) {h : List Deed} {p : Pool} (chronicle : Chronicle S store h p) :
    ((∀ t ∈ p.tasks, ∀ g, ¬ t.BrokenOff g) →
      (∀ key l, p.store.locks[key]? = some l → ∃ t ∈ p.tasks,
        (∃ since s, (⟨since, s, .operate (.acquire key (t.visit.timeout S.settings)), .ok (some l.token)⟩ : Event) ∈
          t.log) ∧
        ((¬ t.Over ∧ ∀ reply, ¬ Heard (.operate (.release key l.token)) reply t.log) ∨
          (t.next = none ∧ (⟨key, l.token⟩ : Guard) ∈ p.owed))) ∧
      ((∀ t ∈ p.tasks, t.Over) → p.owed = [] → p.store.lockCount = 0)) ∧
    ((Store.tokens (calls h)).length < 2 ^ 64 →
      (∀ i now s result key token, ⟨some i, ⟨now, s, .operate (.release key token), .ok result⟩⟩ ∈ h →
        ∀ key' l, s.locks[key']? = some l → (s.release key token).2.locks[key']? ≠ some l →
          ∀ d ∈ h, d.Gives key' l → d.place = some i) ∧
      ∀ g ∈ p.owed, ∃ i t, p.tasks[i]? = some t ∧ t.next = none ∧
        ∀ d ∈ h, ∀ key l, d.Gives key l → l.token = g.token → d.place = some i) := by
  have tidy := Reach.tidy sound others create chronicle.reach
  have conforms := Procedure.conforms chronicle.reach
  refine ⟨fun whole => ?_, fun few => ⟨?_, fun g owes => ?_⟩⟩
  · have belongs : ∀ key l, p.store.locks[key]? = some l → ∃ t ∈ p.tasks,
        (∃ since s, (⟨since, s, .operate (.acquire key (t.visit.timeout S.settings)), .ok (some l.token)⟩ : Event) ∈
          t.log) ∧
        ((¬ t.Over ∧ ∀ reply, ¬ Heard (.operate (.release key l.token)) reply t.log) ∨
          (t.next = none ∧ (⟨key, l.token⟩ : Guard) ∈ p.owed)) := by
      intro key l here
      cases tidy.locks key l here with
      | had has =>
        obtain ⟨t, mem, going, has⟩ := has
        have kept := (conforms t mem).kept
        refine ⟨t, mem, has.acquired kept, .inl ⟨fun gone => ?_, has.unreleased kept key l.token⟩⟩
        obtain ⟨program, next⟩ := Option.ne_none_iff_exists'.1 going
        cases program with
        | perform action resume => exact gone _ _ next
        | done r => exact Finished.not_has ((conforms t mem).meets _ next) has
      | owed owes =>
        obtain ⟨t, mem, gone, took⟩ := tidy.owed _ owes
        exact ⟨t, mem, acquired_of_hold (conforms t mem).kept took, .inr ⟨gone, owes⟩⟩
      | lost broken =>
        obtain ⟨t, mem, broken⟩ := broken
        exact absurd broken (whole t mem _)
    refine ⟨belongs, fun all nothing => ?_⟩
    have none : ∀ key, key ∉ p.store.locks := by
      intro key mem
      obtain ⟨l, here⟩ := Option.isSome_iff_exists.1 (Std.TreeMap.mem_iff_isSome_getElem?.1 mem)
      obtain ⟨t, mem, -, ⟨going, -⟩ | ⟨-, owes⟩⟩ := belongs key l here
      · exact going (all t mem)
      · rw [nothing] at owes
        cases owes
    exact beq_iff_eq.1 (Std.TreeMap.isEmpty_eq_size_eq_zero ▸ Std.TreeMap.isEmpty_iff_forall_not_mem.2 none)
  · intro i now s result key token released key' l there freed d mem gives
    refine chronicle.releases_own create few released ⟨now, s, result, rfl⟩ mem gives ?_
    by_contra other
    exact freed (Store.release_spares there (.inr other))
  · obtain ⟨t, mem, gone, took⟩ := tidy.owed g owes
    obtain ⟨i, here⟩ := List.mem_iff_getElem?.1 mem
    exact ⟨i, t, here, gone, fun d mem key l gives same => chronicle.taker create few here took mem gives same⟩

/-- The lock of a request that is given up while its handler runs is owed, and gone when it is settled. -/
theorem no_lock_leak_given_up : ∃ (S : Surroundings) (store : Store) (h h' : List Deed) (p p' : Pool),
    Chronicle S store h p ∧ p.store.lockCount = 1 ∧ (∃ t ∈ p.tasks, t.next = none) ∧ (⟨"k", 1⟩ : Guard) ∈ p.owed ∧
      Chronicle S store h' p' ∧ p'.store.lockCount = 0 := by
  let v : Visit := ⟨{ key := { override := some (.literal "k") } }, "/", [], some 0,
    ⟨"GET", { path := "/" }, .empty, .empty⟩⟩
  let S : Surroundings :=
    { settings := { enableStats := false }
      comes := (· = v)
      answers := fun _ _ _ => True
      others := fun _ => False
      mayFail := fun _ => False
      mayDrop := fun _ => True }
  -- the stores along the run
  let store (misses : UInt64) (locks : Std.TreeMap String Lock) (token : Token) : Store :=
    ⟨⟨∅, ∅, 0, 1, { misses := misses }, by decide⟩, ∅, locks, token⟩
  let locks : Std.TreeMap String Lock := (∅ : Std.TreeMap String Lock).insert "k" ⟨1, 0, 5000⟩
  have missed : Answered S 0 0 (store 0 ∅ 0) {} (.operate (.get "k")) (.ok none) (store 1 ∅ 0) {} := .operate _
  have locked : Answered S 0 0 (store 1 ∅ 0) {} (.operate (.acquire "k" 5000)) (.ok (some 1)) (store 1 locks 1) {} :=
    .operate (.acquire "k" 5000)
  have dropped := (show Chronicle S (store 0 ∅ 0) [] _ from .start).step (.arrive _ (v := v) rfl)
    |>.step (.turn (i := 0) rfl rfl missed) |>.step (.turn (i := 0) rfl rfl locked)
    |>.step (.turn (i := 0) rfl rfl (.hold _)) |>.step (.drop (i := 0) rfl rfl rfl trivial)
  have settled := dropped.step (.settle (g := ⟨"k", 1⟩) List.mem_cons_self (.operate _))
  have create : Store.create 1 = .ok (store 0 ∅ 0) := rfl
  obtain ⟨before, -⟩ := no_lock_leak (S := S) (fun _ _ => id) (fun _ no => no.elim) create dropped
  obtain ⟨after, -⟩ := no_lock_leak (S := S) (fun _ _ => id) (fun _ no => no.elim) create settled
  obtain ⟨belongs, -⟩ := before fun t mem g broken => by
    cases List.mem_singleton.1 mem
    exact nomatch broken.2
  obtain ⟨-, empty⟩ := after fun t mem g broken => by
    cases List.mem_singleton.1 mem
    exact nomatch broken.2
  obtain ⟨t, mem, -, ⟨going, -⟩ | ⟨gone, owes⟩⟩ := belongs "k" ⟨1, 0, 5000⟩ rfl
  · cases List.mem_singleton.1 mem
    exact absurd (fun _ _ => nofun) going
  · refine ⟨S, _, _, _, _, _, dropped, rfl, ⟨t, mem, gone⟩, owes, settled, empty (fun t mem => ?_) rfl⟩
    cases List.mem_singleton.1 mem
    exact fun _ _ => nofun

end ResponseCache
