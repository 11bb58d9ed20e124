import ResponseCache.Program

/-!
# Programs on a clock that their sleeps move

A `Timeline` answers the actions of a program in its own way at every instant: a store behind it may fail, come to
itself and change what it holds at any time, and only its clock can be relied on. On a timeline a program takes no
time except to sleep, for exactly as long as it asked. `Timeline.run` is what becomes of it. Programs that follow each
other run one after the other (`Timeline.run_bind`).
-/

namespace ResponseCache

/-- What every action is answered at every instant; the clock tells the instant. -/
structure Timeline where
  reply : Instant → (action : Action) → action.Reply
  reply_clock : ∀ now, reply now .clock = now

/-- How long an action takes. -/
def Action.duration : Action → Millis
  | sleep duration => duration
  | operate _ | clock | count _ | readTally | clearTally | hold _ | disarm _ | handle _ _ => 0

/-- The operation of the store that an action is, with its instant. -/
def Action.asked (now : Instant) : Action → List (Instant × Operation)
  | operate op => [(now, op)]
  | clock | sleep _ | count _ | readTally | clearTally | hold _ | disarm _ | handle _ _ => []

/-- How a run went: the operations that the store was asked for, in order, with their instants, and the end of it. -/
structure Timed (α : Type) where
  asked : List (Instant × Operation)
  ended : Instant
  result : α

namespace Timeline

variable {α β : Type} (T : Timeline)

/-- Runs a program from an instant on. -/
def run : Instant → Program α → Timed α
  | now, .done a => ⟨[], now, a⟩
  | now, .perform action resume =>
    let rest := run (now + action.duration) (resume (T.reply now action))
    ⟨action.asked now ++ rest.asked, rest.ended, rest.result⟩

theorem run_done (now : Instant) (a : α) : T.run now (.done a) = ⟨[], now, a⟩ := rfl

theorem run_clock (now : Instant) (resume : Instant → Program α) :
    T.run now (.perform .clock resume) = T.run now (resume now) := by
  show (⟨[] ++ (T.run now (resume (T.reply now .clock))).asked, _, _⟩ : Timed α) = _
  rw [T.reply_clock]
  rfl

/-- **A program goes on** where and when another one ended. -/
theorem run_bind (p : Program α) (next : α → Program β) (now : Instant) :
    T.run now (p >>= next) =
      let first := T.run now p
      let rest := T.run first.ended (next first.result)
      ⟨first.asked ++ rest.asked, rest.ended, rest.result⟩ := by
  induction p generalizing now with
  | done a => rfl
  | perform action resume ih =>
    rw [Program.perform_bind, run, ih]
    simp only [run, List.append_assoc]

end Timeline

end ResponseCache
