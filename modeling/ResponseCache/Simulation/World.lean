import ResponseCache.Program
import ResponseCache.Simulation.Script

/-!
# A world for programs

The surroundings of programs, all in memory: a virtual clock that moves only when it is told to, a store, the tally and
scripted handlers. `World.run` runs a program until it ends, crashes or has to sleep; nothing that happens before takes
any time.

Between a program and the store there may be a probe, which records the keys that are looked up and refuses the
operations it is told to.
-/

namespace ResponseCache.Simulation

structure Probe where
  /-- The names of the operations that are refused. -/
  refused : List String := []
  /-- The keys that were looked up, without repetition, the latest first. -/
  lookups : List String := []

structure World where
  now : Instant := 0
  store : Store
  probe : Option Probe := none
  tally : Tally := {}
  scripts : List Script := []
  /-- How often each handler was called. -/
  calls : List Nat := []
  /-- Guards that were dropped with their locks unreleased. -/
  owed : List Guard := []

namespace Probe

/-- Takes note of the key of a look-up. -/
def note (p : Probe) : Operation → Probe
  | .get key => if p.lookups.contains key then p else { p with lookups := key :: p.lookups }
  | _ => p

def refusal? (p : Probe) (op : Operation) : Option CacheError :=
  if p.refused.contains op.name then some (.backend (op.name ++ " refused")) else none

end Probe

namespace World

/-- Carries out an operation, unless the probe refuses it. -/
def operate (w : World) (op : Operation) : Except CacheError op.Result × World :=
  let w := { w with probe := w.probe.map (·.note op) }
  match w.probe.bind (·.refusal? op) with
  | some e => (.error e, w)
  | none =>
    let (result, store) := w.store.perform w.now op
    (.ok result, { w with store := store })

/-- Counts a call of a handler and chooses the reply. -/
def call (w : World) (handler : Nat) : Nat × Reply × World :=
  let count := w.calls.getD handler 0 + 1
  (count, (w.scripts.getD handler []).reply count, { w with calls := w.calls.set handler count })

/-- Adds guards to those whose locks have to be released. -/
def drop (w : World) (guards : List Guard) : World := { w with owed := w.owed ++ guards }

/-- Releases the locks of all dropped guards. -/
def settle (w : World) : World :=
  w.owed.foldl (fun w g => (w.operate (.release g.key g.token)).2) { w with owed := [] }

end World

/-- Where a run of a program came to a halt. -/
inductive Halt (α : Type) where
  | finished (result : α)
  /-- To be run on at an instant, or to crash there. -/
  | asleep (wake : Instant) (next : Except String (Program α))
  | crashed (reason : String)

/-- Runs a program up to its first halt. `held` are the guards that it owes the release of. -/
def World.run {α : Type} (w : World) (held : List Guard) : Program α → World × List Guard × Halt α
  | .done a => (w, held, .finished a)
  | .perform (.operate op) resume =>
    let (reply, w) := w.operate op
    w.run held (resume reply)
  | .perform .clock resume => w.run held (resume w.now)
  | .perform (.sleep duration) resume =>
    if duration = 0 then w.run held (resume ()) else (w, held, .asleep (w.now + duration) (.ok (resume ())))
  | .perform (.count outcome) resume => { w with tally := w.tally.count outcome }.run held (resume ())
  | .perform .readTally resume => w.run held (resume w.tally)
  | .perform .clearTally resume => { w with tally := {} }.run held (resume ())
  | .perform (.hold g) resume => w.run (g :: held) (resume ())
  | .perform (.disarm g) resume => w.run (held.erase g) (resume ())
  | .perform (.handle endpoint request) resume =>
    let (count, reply, w) := w.call endpoint
    if reply.delay = 0 then
      if reply.crashes then (w, held, .crashed crashText)
      else w.run held (resume (reply.response count request))
    else
      (w, held, .asleep (w.now + reply.delay)
        (if reply.crashes then .error crashText else .ok (resume (reply.response count request))))

end ResponseCache.Simulation
