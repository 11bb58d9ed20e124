import ResponseCache.Proofs.Pool.Chronicle

/-!
# Requests keep time and account for their guards

Each request of a pool is `Orderly`: in its log time does not go back and sleeps last, and while it is under way it owes
just the guards that it took and has not disarmed. What requests that are gone still owe, they took before
(`Reach.owed_taken`).
-/

namespace ResponseCache

open Http

/-- The time that an action takes at least. -/
def Action.lasts : Action → Millis
  | sleep duration => duration
  | operate _ | clock | count _ | readTally | clearTally | hold _ | disarm _ | handle _ _ => 0

namespace Program

/-- The instant of the latest event. -/
def latest : List Event → Instant
  | [] => 0
  | e :: _ => e.now

/-- Time does not go back from one event to the next, and a sleep is over when its time has passed. -/
def Timely : List Event → Prop
  | [] => True
  | e :: log => latest log + e.action.lasts ≤ e.now ∧ Timely log

theorem Timely.le_latest {e : Event} : ∀ {log : List Event}, Timely log → e ∈ log → e.now ≤ latest log
  | e' :: log, timely, mem => by
    rcases List.mem_cons.1 mem with rfl | mem
    · exact Nat.le_refl _
    · exact Nat.le_trans (timely.2.le_latest mem) (Nat.le_trans (Nat.le_add_right ..) timely.1)

theorem Timely.tail {later log : List Event} (timely : Timely (later ++ log)) : Timely log := by
  induction later with
  | nil => exact timely
  | cons e later ih => exact ih timely.2

/-- The guards that a program owes the release of after a log. -/
def heldBy : List Event → List Guard
  | [] => []
  | e :: log => e.action.holding (heldBy log)

theorem mem_holding {g : Guard} {held : List Guard} {action : Action} (mem : g ∈ action.holding held) :
    action = .hold g ∨ g ∈ held := by
  cases action with
  | hold g' =>
    rcases List.mem_cons.1 mem with rfl | mem
    · exact Or.inl rfl
    · exact Or.inr mem
  | disarm g' => exact Or.inr (List.mem_of_mem_erase mem)
  | operate | clock | sleep | count | readTally | clearTally | handle => exact Or.inr mem

theorem mem_holding_of_mem {g : Guard} {held : List Guard} {action : Action} (mem : g ∈ held)
    (keeps : action ≠ .disarm g) : g ∈ action.holding held := by
  cases action with
  | hold g' => exact List.mem_cons_of_mem _ mem
  | disarm g' => exact (List.mem_erase_of_ne fun eq => keeps (congrArg Action.disarm eq.symm)).2 mem
  | operate | clock | sleep | count | readTally | clearTally | handle => exact mem

/-- A guard that was taken on and never disarmed is held. -/
theorem mem_heldBy {g : Guard} : ∀ {log : List Event}, Heard (.hold g) () log →
    (∀ e ∈ log, e.action ≠ .disarm g) → g ∈ heldBy log
  | e :: log, ⟨now, store, mem⟩, armed => by
    rcases List.mem_cons.1 mem with rfl | mem
    · exact List.mem_cons_self
    · have earlier := mem_heldBy ⟨now, store, mem⟩ fun e mem => armed e (List.mem_cons_of_mem _ mem)
      exact mem_holding_of_mem earlier (armed e List.mem_cons_self)

/-- A guard that is held was taken on. -/
theorem heard_of_mem_heldBy {g : Guard} : ∀ {log : List Event}, g ∈ heldBy log → Heard (.hold g) () log
  | ⟨now, store, action, reply⟩ :: log, mem => by
    rcases mem_holding mem with rfl | mem
    · exact ⟨now, store, List.mem_cons_self⟩
    · exact (heard_of_mem_heldBy mem).mono (List.subset_cons_self _ _)

end Program

open Program (Heard latest Timely heldBy)

/-- A request keeps time, and owes the guards that it holds by its log. -/
structure Task.Orderly (now : Instant) (t : Task) : Prop where
  timely : Timely t.log
  latest_le : latest t.log ≤ t.since
  since_le : t.since ≤ now
  held : t.Over ∨ t.held = heldBy t.log
  took : ∀ g ∈ t.held, Heard (.hold g) () t.log

section Steps

variable {S : Surroundings} {store : Store} {p : Pool}

/-- An answer to an action does not come before its time. -/
theorem Answered.lasts {now since : Instant} {store store' : Store} {tally tally' : Tally} {a : Action}
    {reply : a.Reply} (answered : Answered S now since store tally a reply store' tally') (le : since ≤ now) :
    since + a.lasts ≤ now := by
  cases answered with
  | sleep late => exact late
  | operate | fault | clock | count | readTally | clearTally | hold | disarm | handle => exact le

theorem Task.Orderly.turn {now : Instant} {t : Task} (orderly : t.Orderly now) {action : Action}
    {resume : action.Reply → Program Response} (next : t.next = some (.perform action resume)) {reply : action.Reply}
    {store store' : Store} {tally tally' : Tally}
    (answered : Answered S now t.since store tally action reply store' tally') :
    Task.Orderly now { t with
      next := some (resume reply)
      since := now
      held := action.holding t.held
      log := ⟨now, store, action, reply⟩ :: t.log } where
  timely := ⟨Nat.le_trans (Nat.add_le_add_right orderly.latest_le _) (answered.lasts orderly.since_le), orderly.timely⟩
  latest_le := Nat.le_refl now
  since_le := Nat.le_refl now
  held := by
    rcases orderly.held with gone | held
    · exact absurd next (gone _ _)
    · exact Or.inr (congrArg action.holding held)
  took g mem := by
    rcases Program.mem_holding mem with rfl | mem
    · exact ⟨now, store, List.mem_cons_self⟩
    · exact (orderly.took g mem).mono (List.subset_cons_self _ _)

/-- **Every request** is orderly. -/
theorem Reach.orderly (reach : Reach S store p) : ∀ t ∈ p.tasks, t.Orderly p.now := by
  induction reach with
  | refl => exact fun t mem => nomatch mem
  | tail _ step ih =>
    cases step with
    | pass duration =>
      intro t mem
      obtain ⟨timely, latest_le, since_le, held, took⟩ := ih t mem
      exact ⟨timely, latest_le, Nat.le_trans since_le (Nat.le_add_right ..), held, took⟩
    | arrive comes =>
      intro t mem
      rcases List.mem_append.1 mem with mem | mem
      · exact ih t mem
      · cases List.mem_singleton.1 mem
        exact ⟨trivial, Nat.zero_le _, Nat.le_refl _, Or.inr rfl, fun g mem => nomatch mem⟩
    | turn here next answered =>
      intro t mem
      rcases List.mem_or_eq_of_mem_set mem with mem | rfl
      · exact ih t mem
      · exact (ih _ (List.mem_of_getElem? here)).turn next answered
    | drop here next =>
      intro t mem
      rcases List.mem_or_eq_of_mem_set mem with mem | rfl
      · exact ih t mem
      · obtain ⟨timely, latest_le, since_le, -, -⟩ := ih _ (List.mem_of_getElem? here)
        exact ⟨timely, latest_le, since_le, Or.inl fun _ _ => nofun, fun g mem => nomatch mem⟩
    | retire here next =>
      intro t mem
      rcases List.mem_or_eq_of_mem_set mem with mem | rfl
      · exact ih t mem
      · obtain ⟨timely, latest_le, since_le, -, -⟩ := ih _ (List.mem_of_getElem? here)
        refine ⟨timely, latest_le, since_le, Or.inl fun _ _ eq => ?_, fun g mem => nomatch mem⟩
        cases next.symm.trans eq
    | settle | other => exact ih

/-- **What is still owed** was taken by a request that is gone. -/
theorem Reach.owed_taken (reach : Reach S store p) : ∀ g ∈ p.owed, ∃ (i : Nat) (t : Task), p.tasks[i]? = some t ∧
    t.Over ∧ Heard (.hold g) () t.log := by
  induction reach with
  | refl => exact fun g mem => nomatch mem
  | @tail p q reach step ih =>
    -- a request that is gone stays where it is
    have stays : ∀ g ∈ p.owed, ∃ (i : Nat) (t : Task), q.tasks[i]? = some t ∧ t.Over ∧ Heard (.hold g) () t.log := by
      intro g mem
      obtain ⟨i, t, here, gone, took⟩ := ih g mem
      obtain ⟨t', here', goes⟩ := step.continues here
      exact ⟨i, t', here', goes.gone gone, took.mono goes.log.subset⟩
    cases step with
    | pass | arrive | turn | other => exact stays
    | drop here next =>
      intro g mem
      rcases List.mem_append.1 mem with mem | mem
      · exact stays g mem
      · have took := (Reach.orderly reach _ (List.mem_of_getElem? here)).took g mem
        exact ⟨_, _, List.getElem?_set_self (List.getElem?_eq_some_iff.1 here).1, fun _ _ => nofun, took⟩
    | retire here next =>
      intro g mem
      rcases List.mem_append.1 mem with mem | mem
      · exact stays g mem
      · have took := (Reach.orderly reach _ (List.mem_of_getElem? here)).took g mem
        refine ⟨_, _, List.getElem?_set_self (List.getElem?_eq_some_iff.1 here).1, fun _ _ eq => ?_, took⟩
        cases next.symm.trans eq
    | settle => exact fun g mem => stays g (List.mem_of_mem_erase mem)

end Steps

end ResponseCache
