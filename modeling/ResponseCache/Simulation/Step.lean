import ResponseCache.App
import ResponseCache.Simulation.Thread

/-!
# Steps of a session

A session is a world with an application in it, and with guards and computations that were put aside under names. A step
is what can be done in a session: use the service, send a request, turn a knob of the world. `Session.begin` gives the
program of a step; when the program ends, its result is a function that tells the answer and puts aside what is kept.
-/

namespace ResponseCache.Simulation

inductive Step where
  | get (key : String)
  | set (key : String) (value : StoredResponse) (ttl : Millis) (compress : Bool) (tags : List String)
  /-- Locks a key and puts the guard aside. -/
  | acquire (key : String) (timeout : Millis) (name : String)
  | releaseGuard (name : String)
  | dropGuard (name : String)
  | releaseToken (key : String) (token : Token)
  | wait (key : String) (timeout : Millis)
  /-- Resolves a key and puts the computation aside, or releases it at once if it has no name. -/
  | resolve (key : String) (policy : Contention) (timeout : Millis) (name : Option String)
  | releaseComputation (name : String)
  | dropComputation (name : String)
  /-- Resolves a key, and on a miss works for a while, stores the value and releases the lock. -/
  | compute (key : String) (policy : Contention) (timeout work ttl : Millis) (value : StoredResponse)
  | invalidateTag (tag : String)
  | delete (key : String)
  | clear
  | purge
  | resetStats
  | stats
  | count (outcome : Outcome)
  /-- Reads an entry as it is stored. -/
  | readEntry (key : String)
  | writeEntry (key : String) (value : StoredResponse) (ttl : Millis) (tags : List String) (compressed : Bool)
  /-- Looks at the store without using it. -/
  | inspect (key : String)
  /-- Lets the probe refuse exactly these operations from now on. -/
  | refuse (operations : List String)
  | startSweeper (seconds : Nat)
  | stopSweepers
  | advance (duration : Millis)
  | sleep (duration : Millis)
  /-- Sends a request, which may be given up after a while. -/
  | request (request : Http.Request) (limit : Option Millis)

inductive Answer where
  | nothing
  | ok
  | flag (value : Bool)
  | number (value : Nat)
  | failed (error : CacheError)
  | value (value : Option StoredResponse)
  | entry (now : Instant) (entry : Option Entry)
  | guard (guard : Option Guard)
  | resolution (resolution : Resolution)
  /-- A computed value, how it came about, and whether storing it went well, if it was to be stored. -/
  | computed (mark : Mark) (value : StoredResponse) (stored : Option (Except CacheError Unit))
  | report (report : Report)
  /-- The number of entries, the number of locks, and whether the key is locked. -/
  | inspected (entries locks : Nat) (locked : Bool)
  | response (response : Http.Response)
  | crashed (reason : String)
  | cancelled

structure Session where
  world : World
  app : App
  guards : List (String × Guard) := []
  computations : List (String × Computation) := []
  sweepers : List Sweeper := []

namespace Session

/-- What a program of a step ends with. -/
abbrev Finish := Session → Session × Answer

def tell (answer : Answer) : Finish := fun s => (s, answer)

/-- Tells how an operation went. -/
def tellResult {α : Type} (describe : α → Answer) : Except CacheError α → Finish
  | .ok a => tell (describe a)
  | .error e => tell (.failed e)

/-- Tells how a request was served. -/
def tellServed : Except Crash Http.Response → Finish
  | .ok response => tell (.response response)
  | .error crash => tell (.crashed crash.message)

/-- Drops guards, and has their locks released. -/
def drop (s : Session) (guards : List Guard) : Session := { s with world := (s.world.drop guards).settle }

def takeGuard (s : Session) (name : String) : Option Guard × Session :=
  (s.guards.lookup name, { s with guards := s.guards.filter (·.1 != name) })

def takeComputation (s : Session) (name : String) : Option Computation × Session :=
  (s.computations.lookup name, { s with computations := s.computations.filter (·.1 != name) })

/-- Puts a guard aside; one that had the name is dropped. -/
def keepGuard (s : Session) (name : String) (g : Guard) : Session :=
  let (previous, s) := s.takeGuard name
  { s with guards := (name, g) :: s.guards }.drop previous.toList

/-- Puts a computation aside; one that had the name is dropped. -/
def keepComputation (s : Session) (name : String) (c : Computation) : Session :=
  let (previous, s) := s.takeComputation name
  { s with computations := (name, c) :: s.computations }.drop (previous.bind (·.guard)).toList

/-! ## The programs of steps -/

/-- Hands a guard over to the session. -/
def handOver (g : Option Guard) : Program Unit :=
  match g with
  | some g => Program.disarm g
  | none => pure ()

def acquire (key : String) (timeout : Millis) (name : String) : Program Finish := do
  match ← Service.acquire key timeout with
  | .error e => return tell (.failed e)
  | .ok none => return tell (.guard none)
  | .ok (some g) =>
    handOver (some g)
    return fun s => (s.keepGuard name g, .guard (some g))

def resolve (settings : Settings) (key : String) (policy : Contention) (timeout : Millis) (name : Option String) :
    Program Finish := do
  match ← Service.resolve settings key policy timeout with
  | .compute c =>
    match name with
    | some name =>
      handOver c.guard
      return fun s => (s.keepComputation name c, .resolution (.compute c))
    | none =>
      c.release
      return tell (.resolution (.compute c))
  | other => return tell (.resolution other)

def compute (settings : Settings) (key : String) (policy : Contention) (timeout work ttl : Millis)
    (value : StoredResponse) : Program Finish := do
  match ← Service.resolve settings key policy timeout with
  | .hit found => return tell (.computed .hit found none)
  | .waited found => return tell (.computed .wait found none)
  | .rejected seconds => return tell (.resolution (.rejected seconds))
  | .compute c =>
    Program.sleep work
    let stored ← if c.store then some <$> Service.set settings key value ttl false [] else pure none
    c.release
    return tell (.computed c.mark value stored)

def writeEntry (key : String) (value : StoredResponse) (ttl : Millis) (tags : List String) (compressed : Bool) :
    Program Finish := do
  let now ← Program.clock
  return tellResult (fun _ => .ok) (← Program.operate (.set key ⟨value, now + ttl, tags, compressed⟩))

def readEntry (key : String) : Program Finish := do
  let now ← Program.clock
  return tellResult (.entry now) (← Program.operate (.get key))

/-- Asks the store for an operation and tells how it went. -/
def ask (op : Operation) (describe : op.Result → Answer) : Program Finish := do
  return tellResult describe (← Program.operate op)

/-- Begins a step: what it does at once, and the program that does the rest. -/
def begin (s : Session) : Step → Session × Program Finish
  | .get key => (s, do return tellResult .value (← Service.get key))
  | .set key value ttl compress tags =>
    (s, do return tellResult (fun _ => .ok) (← Service.set s.app.settings key value ttl compress tags))
  | .acquire key timeout name => (s, acquire key timeout name)
  | .releaseGuard name =>
    match s.takeGuard name with
    | (some g, s) => (s, do g.release; return tell (.flag true))
    | (none, s) => (s, return tell (.flag false))
  | .dropGuard name =>
    let (g, s) := s.takeGuard name
    (s.drop g.toList, return tell (.flag g.isSome))
  | .releaseToken key token => (s, ask (.release key token) fun _ => .ok)
  | .wait key timeout => (s, do return tell (.value (← Service.await key timeout)))
  | .resolve key policy timeout name => (s, resolve s.app.settings key policy timeout name)
  | .releaseComputation name =>
    match s.takeComputation name with
    | (some c, s) => (s, do c.release; return tell (.flag true))
    | (none, s) => (s, return tell (.flag false))
  | .dropComputation name =>
    let (c, s) := s.takeComputation name
    (s.drop (c.bind (·.guard)).toList, return tell (.flag c.isSome))
  | .compute key policy timeout work ttl value => (s, compute s.app.settings key policy timeout work ttl value)
  | .invalidateTag tag => (s, ask (.invalidateTag tag) .number)
  | .delete key => (s, ask (.delete key) .flag)
  | .clear => (s, ask .clear fun _ => .ok)
  | .purge => (s, ask .purge .number)
  | .resetStats => (s, do return tellResult (fun _ => .ok) (← Service.resetStats))
  | .stats => (s, do return tell (.report (← Service.report)))
  | .count outcome => (s, do Service.count s.app.settings outcome; return tell .nothing)
  | .readEntry key => (s, readEntry key)
  | .writeEntry key value ttl tags compressed => (s, writeEntry key value ttl tags compressed)
  | .inspect key =>
    let w := s.world
    let answer := if w.probe.isSome then
      .inspected w.store.size w.store.lockCount (w.store.isLocked w.now key)
      else .nothing
    (s, return tell answer)
  | .refuse operations =>
    ({ s with world := { s.world with probe := s.world.probe.map ({ · with refused := operations }) } },
      return tell .nothing)
  | .startSweeper seconds =>
    let (world, sweeper) := Sweeper.start seconds s.world
    ({ s with world := world, sweepers := s.sweepers ++ sweeper.toList }, return tell .nothing)
  | .stopSweepers => ({ s with sweepers := [] }, return tell (.number s.sweepers.length))
  | .advance duration => ({ s with world := { s.world with now := s.world.now + duration } }, return tell .nothing)
  | .sleep duration => (s, do Program.sleep duration; return tell .nothing)
  | .request r _ => (s, do return tellServed (← s.app.serve r))

/-- How long a step may take, if there is a limit. -/
def limit? : Step → Option Millis
  | .request _ limit => limit
  | _ => none

end Session

end ResponseCache.Simulation
