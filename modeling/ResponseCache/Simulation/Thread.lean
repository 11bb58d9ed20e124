import ResponseCache.Service.Basic
import ResponseCache.Simulation.World

/-!
# Threads

Programs that take turns in one world. A thread sleeps until an instant; the one that wakes first has the next turn,
of several the first in the list, and a turn lasts up to the next halt. A thread with a limit is cut off there if it
has not ended; what is due by then, at the limit itself or because the clock has jumped, still gets its turn. The
guards that a thread holds when it crashes or is cut off are dropped, and their locks released before the next turn.

Sweepers run beside the threads, whenever an interval has passed.
-/

namespace ResponseCache.Simulation

/-- How a thread ended. -/
inductive Ending (α : Type) where
  | finished (result : α)
  | crashed (reason : String)
  | cutOff

structure Thread (α : Type) where
  wake : Instant
  limit : Option Instant
  held : List Guard
  next : Except String (Program α)

/-- A sweeper that waits for the end of its interval. -/
structure Sweeper where
  seconds : Nat
  wake : Instant
  rest : Program Unit

namespace Thread

variable {α : Type}

/-- When the thread has its next turn. -/
def due (t : Thread α) : Instant :=
  match t.limit with
  | none => t.wake
  | some limit => min t.wake limit

/-- Takes a turn, the clock being set to the instant it is due. -/
def turn (t : Thread α) (w : World) : World × (Thread α ⊕ Ending α) :=
  let w := { w with now := max w.now t.due }
  if w.now < t.wake then ((w.drop t.held).settle, .inr .cutOff)
  else match t.next with
    | .error reason => ((w.drop t.held).settle, .inr (.crashed reason))
    | .ok program =>
      match w.run t.held program with
      | (w, held, .finished result) => ((w.drop held).settle, .inr (.finished result))
      | (w, held, .crashed reason) => ((w.drop held).settle, .inr (.crashed reason))
      | (w, held, .asleep wake next) =>
        if t.limit.any (· ≤ w.now) then ((w.drop held).settle, .inr .cutOff)
        else (w.settle, .inl { t with wake := wake, held := held, next := next })

end Thread

namespace Sweeper

/-- Begins an interval. -/
def start (seconds : Nat) (w : World) : World × Option Sweeper :=
  match w.run [] (Service.sweep seconds) with
  | (w, _, .asleep wake (.ok rest)) => (w, some ⟨seconds, wake, rest⟩)
  | (w, _, _) => (w, none)

/-- Sweeps at the end of the interval and begins the next one. -/
def turn (s : Sweeper) (w : World) : World × Option Sweeper :=
  start s.seconds ({ w with now := max w.now s.wake }.run [] s.rest).1

end Sweeper

end ResponseCache.Simulation
