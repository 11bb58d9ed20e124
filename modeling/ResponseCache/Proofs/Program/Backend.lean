import ResponseCache.Simulation.World

/-!
# Programs on any backend

A `Backend` is what may stand behind the operations of a service: states of any kind, and what an operation may be
answered with and leave behind, be it a result or an error. A service on a backend holds a state of it and a tally,
and `Backend.Runs` says what a program that has the service for itself may end with. Programs that follow each other
run one after the other (`runs_bind`). What `World.run` does without a halt is such a run, on a store in memory that
answers or refuses (`World.run_runs`).
-/

namespace ResponseCache

/-- States of any kind, and how each operation may be answered in a state, with the state that is left. -/
structure Backend where
  State : Type
  Answers : State → (op : Operation) → Except CacheError op.Result → State → Prop

namespace Backend

variable {α β : Type} {b : Backend}

/-- A call that fails has no effect. -/
def FailsClean (b : Backend) : Prop :=
  ∀ (held : b.State) (op : Operation) (e : CacheError) (left : b.State), b.Answers held op (.error e) left → left = held

/-- What a service holds: the state of its backend and its tally. -/
@[ext] structure Holding (b : Backend) where
  store : b.State
  tally : Tally

/-- What an action may be answered with, and what the service holds then. Clocks, handlers and the keeping of guards are
no matter of the backend, and answer as they like. -/
def Acts (b : Backend) : (action : Action) → b.Holding → action.Reply → b.Holding → Prop
  | .operate op, s, reply, s' => b.Answers s.store op reply s'.store ∧ s'.tally = s.tally
  | .readTally, s, tally, s' => tally = s.tally ∧ s' = s
  | .count outcome, s, _, s' => s' = { s with tally := s.tally.count outcome }
  | .clearTally, s, _, s' => s' = { s with tally := {} }
  | .clock, s, _, s' | .sleep _, s, _, s' | .hold _, s, _, s' | .disarm _, s, _, s' | .handle _ _, s, _, s' => s' = s

/-- A program that nobody disturbs may end so. -/
def Runs (b : Backend) : Program α → b.Holding → α → b.Holding → Prop
  | .done a, s, result, s' => result = a ∧ s' = s
  | .perform action resume, s, result, s' =>
    ∃ reply between, b.Acts action s reply between ∧ b.Runs (resume reply) between result s'

/-- **A program goes on** where another one ended. -/
theorem runs_bind {p : Program α} {next : α → Program β} {s s' : b.Holding} {result : β} :
    b.Runs (p >>= next) s result s' ↔ ∃ a between, b.Runs p s a between ∧ b.Runs (next a) between result s' := by
  induction p generalizing s with
  | done a =>
    constructor
    · exact fun runs => ⟨a, s, ⟨rfl, rfl⟩, runs⟩
    · rintro ⟨_, _, ⟨rfl, rfl⟩, runs⟩
      exact runs
  | perform action resume ih =>
    constructor
    · rintro ⟨reply, first, acts, runs⟩
      obtain ⟨a, second, runs, more⟩ := (ih reply).1 runs
      exact ⟨a, second, ⟨reply, first, acts, runs⟩, more⟩
    · rintro ⟨a, second, ⟨reply, first, acts, runs⟩, more⟩
      exact ⟨reply, first, acts, (ih reply).2 ⟨a, second, runs, more⟩⟩

theorem runs_map {p : Program α} {f : α → β} {s s' : b.Holding} {result : β} :
    b.Runs (f <$> p) s result s' ↔ ∃ a, b.Runs p s a s' ∧ result = f a := by
  rw [map_eq_pure_bind, runs_bind]
  constructor
  · rintro ⟨a, _, runs, rfl, rfl⟩
    exact ⟨a, runs, rfl⟩
  · rintro ⟨a, runs, rfl⟩
    exact ⟨a, s', runs, rfl, rfl⟩

/-- One operation. -/
theorem runs_operate {op : Operation} {s s' : b.Holding} {reply : Except CacheError op.Result} :
    b.Runs (Program.operate op) s reply s' ↔ b.Answers s.store op reply s'.store ∧ s'.tally = s.tally := by
  constructor
  · rintro ⟨_, _, acts, rfl, rfl⟩
    exact acts
  · exact fun acts => ⟨reply, s', acts, rfl, rfl⟩

/-- An operation that fails changes nothing. -/
theorem FailsClean.operate (clean : b.FailsClean) {op : Operation} {s s' : b.Holding} {e : CacheError}
    (runs : b.Runs (Program.operate op) s (.error e) s') : s' = s := by
  obtain ⟨answers, tally⟩ := runs_operate.1 runs
  exact Holding.ext (clean _ _ _ _ answers) tally

/-! ## A store in memory -/

/-- A store in memory that carries an operation out, at any instant, or refuses it. -/
def memory : Backend where
  State := Store
  Answers store op reply left :=
    (∃ now, reply = .ok (store.perform now op).1 ∧ left = (store.perform now op).2) ∨
      ∃ e, reply = .error e ∧ left = store

theorem memory_failsClean : memory.FailsClean := by
  rintro store op e left (⟨now, eq, -⟩ | ⟨-, -, same⟩)
  · cases eq
  · exact same

end Backend

namespace Simulation

/-- What the service of a world holds. -/
def World.holding (w : World) : Backend.memory.Holding := ⟨w.store, w.tally⟩

/-- An operation in a world is answered by a store in memory that may refuse it. -/
theorem World.operate_answers (w : World) (op : Operation) :
    Backend.memory.Answers w.store op (w.operate op).1 (w.operate op).2.store := by
  unfold World.operate
  dsimp only
  split
  · next e _ => exact .inr ⟨e, rfl, rfl⟩
  · exact .inl ⟨w.now, rfl, rfl⟩

theorem World.operate_tally (w : World) (op : Operation) : (w.operate op).2.tally = w.tally := by
  unfold World.operate
  dsimp only
  split <;> rfl

/-- **A run in a world** that comes to its end is a run on a store in memory. -/
theorem World.run_runs {α : Type} {p : Program α} {w w' : World} {held held' : List Guard} {result : α}
    (run : w.run held p = (w', held', .finished result)) : Backend.memory.Runs p w.holding result w'.holding := by
  induction p generalizing w held with
  | done a =>
    cases run
    exact ⟨rfl, rfl⟩
  | perform action resume ih =>
    cases action with
    | operate op => exact ⟨_, (w.operate op).2.holding, ⟨w.operate_answers op, w.operate_tally op⟩, ih _ run⟩
    | clock => exact ⟨w.now, _, rfl, ih _ run⟩
    | sleep duration =>
      simp only [World.run] at run
      split at run
      · exact ⟨(), _, rfl, ih _ run⟩
      · cases run
    | count outcome => exact ⟨(), _, rfl, ih _ run⟩
    | readTally => exact ⟨w.tally, _, ⟨rfl, rfl⟩, ih _ run⟩
    | clearTally => exact ⟨(), _, rfl, ih _ run⟩
    | hold g => exact ⟨(), _, rfl, ih _ run⟩
    | disarm g => exact ⟨(), _, rfl, ih _ run⟩
    | handle endpoint request =>
      simp only [World.run] at run
      split at run
      · split at run
        · cases run
        · exact ⟨_, (w.call endpoint).2.2.holding, rfl, ih _ run⟩
      · cases run

end Simulation

end ResponseCache
