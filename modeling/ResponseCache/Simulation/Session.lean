import ResponseCache.Simulation.Step

/-!
# Sessions

Runs the steps of a session: one after the other, or several at a time, each in a thread of its own from its start on.
-/

namespace ResponseCache.Simulation

open Session (Finish)

/-- A step on its way. -/
inductive Slot where
  | waiting (start : Instant) (step : Step)
  | running (thread : Thread Finish)
  | ended (time : Instant) (answer : Answer)

def Slot.due? : Slot → Option Instant
  | waiting start _ => some start
  | running thread => some thread.due
  | ended _ _ => none

/-- The place of the least instant in a list and that instant; of several the first. -/
def earliest : List (Option Instant) → Option (Nat × Instant)
  | [] => none
  | due :: rest =>
    match due, earliest rest with
    | none, found => found.map fun (i, t) => (i + 1, t)
    | some t, none => some (0, t)
    | some t, some (i, u) => if t ≤ u then some (0, t) else some (i + 1, u)

namespace Session

/-- A session without anything put aside, over an empty store for the number of entries that the settings say. -/
def create (app : App) (probe : Option Probe) (scripts : List Script) : Except CacheError Session :=
  (Store.create app.settings.maxEntries).map fun store =>
    ⟨{ store := store, probe := probe, scripts := scripts, calls := scripts.map fun _ => 0 }, app, [], [], []⟩

/-- Gives a thread a turn. -/
def turn (s : Session) (t : Thread Finish) : Session × Slot :=
  let (world, outcome) := t.turn s.world
  let s := { s with world := world }
  match outcome with
  | .inl t => (s, .running t)
  | .inr (.finished finish) =>
    let (s, answer) := finish s
    (s, .ended s.world.now answer)
  | .inr (.crashed reason) => (s, .ended s.world.now (.crashed reason))
  | .inr .cutOff => (s, .ended s.world.now .cancelled)

/-- Gives a step a turn, starting it if it was not started. -/
def turnSlot (s : Session) : Slot → Session × Slot
  | .waiting start step =>
    let now := max s.world.now start
    let (s, program) := { s with world := { s.world with now := now } }.begin step
    s.turn ⟨now, (limit? step).map (now + ·), [], .ok program⟩
  | .running t => s.turn t
  | .ended time answer => (s, .ended time answer)

/-- Gives the sweeper at a place a turn. -/
def turnSweeper (s : Session) (i : Nat) : Session :=
  match s.sweepers[i]? with
  | none => s
  | some sweeper =>
    let (world, next) := sweeper.turn s.world
    { s with world := world, sweepers := s.sweepers.take i ++ next.toList ++ s.sweepers.drop (i + 1) }

/-- Gives turns to whatever is due first, steps before sweepers, until all steps have ended and no sweeper is due; at
most `turns` of them. -/
def runSlots (s : Session) (slots : List Slot) : Nat → Session × List Slot
  | 0 => (s, slots)
  | turns + 1 =>
    match earliest (slots.map Slot.due?), earliest (s.sweepers.map fun sweeper => some sweeper.wake) with
    | none, none => (s, slots)
    | none, some (i, wake) => if wake ≤ s.world.now then (s.turnSweeper i).runSlots slots turns else (s, slots)
    | some (i, _), none => runSlot s slots i turns
    | some (i, due), some (j, wake) =>
      if wake < due then (s.turnSweeper j).runSlots slots turns else runSlot s slots i turns
where
  /-- Gives the step at a place a turn and goes on. -/
  runSlot (s : Session) (slots : List Slot) (i turns : Nat) : Session × List Slot :=
    match slots[i]? with
    | none => (s, slots)
    | some slot =>
      let (s, slot) := s.turnSlot slot
      s.runSlots (slots.set i slot) turns

/-- How many turns the steps that run at the same time get together. -/
def maxTurns : Nat := 10000000

/-- Runs steps, each from its start on, counted from now. Gives the instants at which they ended, with their answers. -/
def perform (s : Session) (steps : List (Millis × Step)) : Session × List (Instant × Answer) :=
  let (s, slots) := s.runSlots (steps.map fun (delay, step) => .waiting (s.world.now + delay) step) maxTurns
  (s, slots.filterMap fun
    | .ended time answer => some (time, answer)
    | _ => none)

end Session

end ResponseCache.Simulation
