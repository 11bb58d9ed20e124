import ResponseCache.Proofs.Middleware.Responses
import ResponseCache.Proofs.Pool.Orderly

/-!
# What the log of a request tells

Of all that happened to a request some things matter later: what it counted, how its attempt to lock came out, what
its handler answered, what it wrote, and whether its first look-up failed. These are the `facts` of its log. What
matters for its next action alone is what is `due`, and the guards that it holds. Where nothing is due, all that
together is where the request `Stands`.
-/

namespace ResponseCache.Procedure

open Http
open Program (Event Heard heldBy)

/-! ## Looking a key up -/

/-- What the service makes of the answer to a look-up. -/
def looked : Except CacheError (Option Entry) → Except CacheError (Option StoredResponse)
  | .error e => .error e
  | .ok none => .ok none
  | .ok (some entry) => entry.unpack.map some

theorem get_eq (key : String) : Service.get key = (do return looked (← Program.operate (.get key))) := by
  refine congrArg (Program.perform _) (funext fun reply => ?_)
  rcases reply with e | _ | entry <;> rfl

theorem looked_eq_some {reply : Except CacheError (Option Entry)} {value : StoredResponse}
    (found : looked reply = .ok (some value)) : ∃ entry, reply = .ok (some entry) ∧ entry.unpack = .ok value := by
  rcases reply with e | _ | entry
  · cases found
  · cases found
  · refine ⟨entry, rfl, ?_⟩
    change entry.unpack.map some = _ at found
    cases unpacked : entry.unpack <;> rw [unpacked] at found <;> cases found
    rfl

theorem looked_eq_none {reply : Except CacheError (Option Entry)} (missing : looked reply = .ok none) :
    reply = .ok none := by
  rcases reply with e | _ | entry
  · cases missing
  · rfl
  · change entry.unpack.map some = _ at missing
    cases unpacked : entry.unpack <;> rw [unpacked] at missing <;> cases missing

/-- A value was found under the key. -/
def Found (key : String) (value : StoredResponse) (log : List Event) : Prop :=
  ∃ entry, Heard (.operate (.get key)) (.ok (some entry)) log ∧ entry.unpack = .ok value

theorem Found.mono {key : String} {value : StoredResponse} {log log' : List Event} (sub : log ⊆ log') :
    Found key value log → Found key value log'
  | ⟨entry, heard, unpacked⟩ => ⟨entry, heard.mono sub, unpacked⟩

/-! ## Facts -/

/-- What an event adds to the tally. -/
def outcome? : Event → Option Outcome
  | ⟨_, _, .count outcome, _⟩ => some outcome
  | _ => none

/-- The answer to an attempt to take a lock. -/
def attempt? : Event → Option (Except CacheError (Option Token))
  | ⟨_, _, .operate (.acquire _ _), reply⟩ => some reply
  | _ => none

/-- The response of a handler. -/
def run? : Event → Option Response
  | ⟨_, _, .handle _ _, response⟩ => some response
  | _ => none

/-- What was written under which key, with the answer. -/
def write? : Event → Option (String × Entry × Except CacheError Unit)
  | ⟨_, _, .operate (.set key e), reply⟩ => some (key, e, reply)
  | _ => none

def outcomes (log : List Event) : List Outcome := log.filterMap outcome?

def attempts (log : List Event) : List (Except CacheError (Option Token)) := log.filterMap attempt?

def runs (log : List Event) : List Response := log.filterMap run?

def writes (log : List Event) : List (String × Entry × Except CacheError Unit) := log.filterMap write?

def failed {α : Type} : Except CacheError α → Bool
  | .error _ => true
  | .ok _ => false

/-- A look-up that came to no result: the store failed it, or what it gave cannot be unpacked. -/
def lookupFails : Event → Bool
  | ⟨_, _, .operate (.get _), .error _⟩ => true
  | ⟨_, _, .operate (.get _), .ok (some e)⟩ => failed e.unpack
  | _ => false

/-- The request began with a look-up that failed. -/
def lookupFailed : List Event → Bool
  | [] => false
  | [e] => lookupFails e
  | _ :: log => lookupFailed log

/-- What a log tells of the outcomes and of what they depend on. -/
structure Facts where
  outcomes : List Outcome
  attempts : List (Except CacheError (Option Token))
  runs : List Response
  writes : List (String × Entry × Except CacheError Unit)
  lookup : Bool

def facts (log : List Event) : Facts := ⟨outcomes log, attempts log, runs log, writes log, lookupFailed log⟩

section Logs

variable {log : List Event} {now : Instant} {store : Store} {key : String}

theorem lookupFails_get (reply : Except CacheError (Option Entry)) :
    lookupFails ⟨now, store, .operate (.get key), reply⟩ = failed (looked reply) := by
  rcases reply with e | _ | entry
  · rfl
  · rfl
  · show failed entry.unpack = failed (entry.unpack.map some)
    cases entry.unpack <;> rfl

theorem lookupFailed_cons {e : Event} (other : lookupFails e = false ∨ log ≠ []) :
    lookupFailed (e :: log) = lookupFailed log := by
  cases log with
  | nil => exact other.resolve_right fun ne => ne rfl
  | cons => rfl

/-- What a log tells after one more event, unless that is the look-up which the request begins with. -/
theorem facts_cons {e : Event} (other : lookupFails e = false ∨ log ≠ []) : facts (e :: log) =
    ⟨(outcome? e).toList ++ outcomes log, (attempt? e).toList ++ attempts log, (run? e).toList ++ runs log,
      (write? e).toList ++ writes log, lookupFailed log⟩ := by
  rw [facts, lookupFailed_cons other]
  simp only [outcomes, attempts, runs, writes, List.filterMap_eq_flatMap_toList, List.flatMap_cons]

theorem facts_count (outcome : Outcome) : facts (⟨now, store, .count outcome, ()⟩ :: log) =
    { facts log with outcomes := outcome :: (facts log).outcomes } := facts_cons (.inl rfl)

theorem facts_handle (endpoint : Nat) (request : Request) (response : Response) :
    facts (⟨now, store, .handle endpoint request, response⟩ :: log) =
      { facts log with runs := response :: (facts log).runs } := facts_cons (.inl rfl)

theorem facts_set (e : Entry) (reply : Except CacheError Unit) :
    facts (⟨now, store, .operate (.set key e), reply⟩ :: log) =
      { facts log with writes := (key, e, reply) :: (facts log).writes } := facts_cons (.inl rfl)

/-- An event that tells nothing. -/
theorem facts_silent {e : Event} (other : lookupFails e = false ∨ log ≠ []) (outcome : outcome? e = none)
    (attempt : attempt? e = none) (run : run? e = none) (write : write? e = none) : facts (e :: log) = facts log := by
  rw [facts_cons other, outcome, attempt, run, write]
  rfl

theorem mem_runs {r : Response} : r ∈ runs log ↔ ∃ endpoint request, Heard (.handle endpoint request) r log := by
  constructor
  · intro mem
    obtain ⟨⟨now, s, action, reply⟩, mem, run⟩ := List.mem_filterMap.1 mem
    unfold run? at run
    split at run
    · next eq =>
      cases eq
      cases run
      exact ⟨_, _, now, s, mem⟩
    · cases run
  · rintro ⟨endpoint, request, now, s, mem⟩
    exact List.mem_filterMap.2 ⟨_, mem, rfl⟩

theorem mem_writes {e : Entry} {reply : Except CacheError Unit} : (key, e, reply) ∈ writes log ↔
    Heard (.operate (.set key e)) reply log := by
  constructor
  · intro mem
    obtain ⟨⟨now, s, action, result⟩, mem, write⟩ := List.mem_filterMap.1 mem
    unfold write? at write
    split at write
    · next eq =>
      cases eq
      cases write
      exact ⟨now, s, mem⟩
    · cases write
  · rintro ⟨now, s, mem⟩
    exact List.mem_filterMap.2 ⟨_, mem, rfl⟩

theorem mem_attempts {reply : Except CacheError (Option Token)} : reply ∈ attempts log ↔
    ∃ key timeout, Heard (.operate (.acquire key timeout)) reply log := by
  constructor
  · intro mem
    obtain ⟨⟨now, s, action, result⟩, mem, attempt⟩ := List.mem_filterMap.1 mem
    unfold attempt? at attempt
    split at attempt
    · next eq =>
      cases eq
      cases attempt
      exact ⟨_, _, now, s, mem⟩
    · cases attempt
  · rintro ⟨key, timeout, now, s, mem⟩
    exact List.mem_filterMap.2 ⟨_, mem, rfl⟩

/-! ## What is due -/

/-- The action that has to come next. -/
def due : List Event → Option Action
  | ⟨_, _, .operate (.acquire key _), .ok (some token)⟩ :: _ => some (.hold ⟨key, token⟩)
  | ⟨_, _, .disarm g, _⟩ :: _ => some (.operate (.release g.key g.token))
  | _ => none

variable {g : Guard}

theorem given_of_due (next : due log = some (.hold g)) : ∃ now store timeout rest,
    log = ⟨now, store, .operate (.acquire g.key timeout), .ok (some g.token)⟩ :: rest := by
  unfold due at next
  split at next
  · cases next
    exact ⟨_, _, _, _, rfl⟩
  · cases next
  · cases next

theorem disarmed_of_due (next : due log = some (.operate (.release g.key g.token))) : ∃ now store rest,
    log = ⟨now, store, .disarm g, ()⟩ :: rest := by
  obtain ⟨key, token⟩ := g
  unfold due at next
  split at next
  · cases next
  · next now store g' reply rest =>
    obtain ⟨key', token'⟩ := g'
    cases next
    exact ⟨now, store, rest, rfl⟩
  · cases next

end Logs

/-! ## Where a request stands -/

/-- Nothing is due, the request holds these guards, and its log tells this. -/
structure Stands (log : List Event) (held : List Guard) (f : Facts) : Prop where
  settled : due log = none
  held : heldBy log = held
  facts : facts log = f

namespace Stands

variable {log : List Event} {held : List Guard} {f : Facts}

theorem start : Stands [] [] ⟨[], [], [], [], false⟩ := ⟨rfl, rfl, rfl⟩

theorem clock (stands : Stands log held f) (now : Instant) (store : Store) (told : Instant) :
    Stands (⟨now, store, .clock, told⟩ :: log) held f :=
  ⟨rfl, stands.held, (facts_silent (.inl rfl) rfl rfl rfl rfl).trans stands.facts⟩

theorem sleep (stands : Stands log held f) (now : Instant) (store : Store) (duration : Millis) :
    Stands (⟨now, store, .sleep duration, ()⟩ :: log) held f :=
  ⟨rfl, stands.held, (facts_silent (.inl rfl) rfl rfl rfl rfl).trans stands.facts⟩

/-- A look-up that is not the first one. -/
theorem get (stands : Stands log held f) (begun : log ≠ []) (now : Instant) (store : Store) (key : String)
    (reply : Except CacheError (Option Entry)) : Stands (⟨now, store, .operate (.get key), reply⟩ :: log) held f :=
  ⟨rfl, stands.held, (facts_silent (.inr begun) rfl rfl rfl rfl).trans stands.facts⟩

theorem handle (stands : Stands log held f) (now : Instant) (store : Store) (endpoint : Nat) (request : Request)
    (response : Response) :
    Stands (⟨now, store, .handle endpoint request, response⟩ :: log) held { f with runs := response :: f.runs } :=
  ⟨rfl, stands.held, by rw [facts_handle, stands.facts]⟩

theorem set (stands : Stands log held f) (now : Instant) (store : Store) (key : String) (e : Entry)
    (reply : Except CacheError Unit) :
    Stands (⟨now, store, .operate (.set key e), reply⟩ :: log) held { f with writes := (key, e, reply) :: f.writes } :=
  ⟨rfl, stands.held, by rw [facts_set, stands.facts]⟩

theorem attempts (stands : Stands log held f) : attempts log = f.attempts := congrArg Facts.attempts stands.facts

theorem runs (stands : Stands log held f) : runs log = f.runs := congrArg Facts.runs stands.facts

theorem writes (stands : Stands log held f) : writes log = f.writes := congrArg Facts.writes stands.facts

theorem lookup (stands : Stands log held f) : lookupFailed log = f.lookup := congrArg Facts.lookup stands.facts

end Stands

/-- What is counted of outcomes with the statistics on. -/
def booked (settings : Settings) (os : List Outcome) : List Outcome := if settings.enableStats then os else []

theorem booked_nil (settings : Settings) : booked settings [] = [] := by
  unfold booked
  split <;> rfl

theorem Stands.unbooked {log : List Event} {held : List Guard} {a : List (Except CacheError (Option Token))}
    {rs : List Response} {ws : List (String × Entry × Except CacheError Unit)} {l : Bool} (settings : Settings)
    (stands : Stands log held ⟨[], a, rs, ws, l⟩) : Stands log held ⟨booked settings [], a, rs, ws, l⟩ := by
  rwa [booked_nil]

end ResponseCache.Procedure
