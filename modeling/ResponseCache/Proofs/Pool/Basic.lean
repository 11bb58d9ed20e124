import Mathlib.Logic.Relation
import ResponseCache.Middleware
import ResponseCache.Proofs.Program.Contract
import ResponseCache.Proofs.Store.Provenance

/-!
# Requests that share a store

A `Pool` is everything that goes on at once: the requests under way, each with what is left of its program, the store
and the tally that they share, and a clock. One `Pool.Step` lets time pass, lets a request come in, gives one request
an answer to one action, gives a request up or lets it go when it is done, releases a lock that such a request still
held, or is an operation of somebody else. So the actions of requests interleave freely, and any operation on the
store may fail without an effect where `Surroundings` allow it.

What each program keeps to by its contract, all of them keep to together (`Reach.meets`).
-/

namespace ResponseCache

open Http

/-- A request to a route that has a rule. -/
structure Visit where
  rule : RouteRule
  template : String
  params : List (String × String)
  /-- The endpoint that answers; there is none for a method that the route refuses. -/
  endpoint : Option Nat
  request : Request

namespace Visit

/-- What answers behind the cache. -/
def handler (v : Visit) (r : Request) : Program Response :=
  match v.endpoint with
  | some endpoint => Program.handle endpoint r
  | none => return .bare 405

/-- What is done for the request. -/
def serve (settings : Settings) (v : Visit) : Program Response :=
  Middleware.serve settings v.rule v.template v.params v.handler v.request

/-- The policy for a locked key. -/
def policy (settings : Settings) (v : Visit) : Contention := v.rule.contention.getD settings.contention

/-- The time that the lock of the key may be held. -/
def timeout (settings : Settings) (v : Visit) : Millis := v.rule.lockTimeout.getD settings.lockTimeout

/-- The key of the request, if its body can be read and everything that is selected can be covered. -/
def key? (settings : Settings) (v : Visit) : Option String :=
  (Middleware.capture v.rule.key v.template v.params v.request).bind fun (facts, _) =>
    if v.rule.key.canKey facts then some (v.rule.key.build settings.keyStart facts) else none

end Visit

/-- What requests meet with. -/
structure Surroundings where
  settings : Settings
  /-- The requests that may come in. -/
  comes : Visit → Prop
  /-- The responses that the handler of an endpoint may give. -/
  answers : Nat → Request → Response → Prop
  /-- The operations that others may carry out on the store. -/
  others : Operation → Prop
  /-- The operations that the store may fail. -/
  mayFail : Operation → Prop
  /-- The requests that may be given up. -/
  mayDrop : Visit → Prop

/-- A request under way. -/
structure Task where
  visit : Visit
  /-- What is left to do, unless the request was given up. -/
  next : Option (Program Response)
  /-- When its latest action was answered, or when it came in. -/
  since : Instant
  /-- The guards that it owes the release of. -/
  held : List Guard := []
  /-- What happened to it, the latest first. -/
  log : List Program.Event := []

structure Pool where
  now : Instant := 0
  store : Store
  tally : Tally := {}
  tasks : List Task := []
  /-- The guards that requests held when they were given up or let go, until their locks are released. -/
  owed : List Guard := []

/-- Whether a program may be given up while it waits for the answer to an action. The others are answered at once. -/
def Action.suspends : Action → Bool
  | operate _ | sleep _ | handle _ _ => true
  | clock | count _ | readTally | clearTally | hold _ | disarm _ => false

/-- The guards that a program owes the release of after an action. -/
def Action.holding (held : List Guard) : Action → List Guard
  | hold g => g :: held
  | disarm g => held.erase g
  | operate _ | clock | sleep _ | count _ | readTally | clearTally | handle _ _ => held

section Steps

variable (S : Surroundings)

/-- The answers that an action may get at an instant from a store and a tally, and what becomes of the two. A sleep that
began at `since` is over when its time has passed. -/
inductive Answered (now since : Instant) (store : Store) (tally : Tally) : (a : Action) → a.Reply → Store → Tally → Prop
  | operate (op : Operation) :
      Answered now since store tally (.operate op) (.ok (store.perform now op).1) (store.perform now op).2 tally
  | fault {op : Operation} (e : CacheError) : S.mayFail op →
      Answered now since store tally (.operate op) (.error e) store tally
  | clock : Answered now since store tally .clock now store tally
  | sleep {duration : Millis} : since + duration ≤ now → Answered now since store tally (.sleep duration) () store tally
  | count (outcome : Outcome) : Answered now since store tally (.count outcome) () store (tally.count outcome)
  | readTally : Answered now since store tally .readTally tally store tally
  | clearTally : Answered now since store tally .clearTally () store {}
  | hold (g : Guard) : Answered now since store tally (.hold g) () store tally
  | disarm (g : Guard) : Answered now since store tally (.disarm g) () store tally
  | handle {endpoint : Nat} {request : Request} {response : Response} : S.answers endpoint request response →
      Answered now since store tally (.handle endpoint request) response store tally

variable {S}

/-- An operation that succeeds is carried out by the store. -/
theorem Answered.of_ok {now since : Instant} {store store' : Store} {tally tally' : Tally} {op : Operation}
    {result : op.Result} (answered : Answered S now since store tally (.operate op) (.ok result) store' tally') :
    result = (store.perform now op).1 ∧ store' = (store.perform now op).2 ∧ tally' = tally := by
  generalize eq : (Except.ok result : Except CacheError op.Result) = reply at answered
  cases answered with
  | operate => exact ⟨Except.ok.inj eq, rfl, rfl⟩
  | fault => cases eq

variable (S)

/-- One thing that happens. -/
inductive Pool.Step : Pool → Pool → Prop
  | pass (p : Pool) (duration : Millis) : Step p { p with now := p.now + duration }
  | arrive (p : Pool) {v : Visit} : S.comes v →
      Step p { p with tasks := p.tasks ++ [{ visit := v, next := some (v.serve S.settings), since := p.now }] }
  | turn {p : Pool} {i : Nat} {t : Task} {action : Action} {resume : action.Reply → Program Response}
      {reply : action.Reply} {store : Store} {tally : Tally} :
      p.tasks[i]? = some t → t.next = some (.perform action resume) →
      Answered S p.now t.since p.store p.tally action reply store tally →
      Step p { p with
        store := store
        tally := tally
        tasks := p.tasks.set i { t with
          next := some (resume reply)
          since := p.now
          held := action.holding t.held
          log := ⟨p.now, p.store, action, reply⟩ :: t.log } }
  | drop {p : Pool} {i : Nat} {t : Task} {action : Action} {resume : action.Reply → Program Response} :
      p.tasks[i]? = some t → t.next = some (.perform action resume) → action.suspends = true → S.mayDrop t.visit →
      Step p { p with tasks := p.tasks.set i { t with next := none, held := [] }, owed := p.owed ++ t.held }
  | retire {p : Pool} {i : Nat} {t : Task} {r : Response} : p.tasks[i]? = some t → t.next = some (.done r) →
      Step p { p with tasks := p.tasks.set i { t with held := [] }, owed := p.owed ++ t.held }
  | settle {p : Pool} {g : Guard} {reply : Except CacheError Unit} {store : Store} {tally : Tally} : g ∈ p.owed →
      Answered S p.now p.now p.store p.tally (.operate (.release g.key g.token)) reply store tally →
      Step p { p with store := store, owed := p.owed.erase g }
  | other (p : Pool) {op : Operation} : S.others op → Step p { p with store := (p.store.perform p.now op).2 }

/-- The pools that may come of a store before the first request. -/
def Reach (store : Store) : Pool → Prop := Relation.ReflTransGen (Pool.Step S) { store := store }

end Steps

/-! ## Contracts of all requests together -/

/-- What holds of the store grants what a contract says, and stays true when programs keep to the contract. -/
structure Upholds (S : Surroundings) (inv : Store → Prop) (c : Program.Contract) : Prop where
  grants {now since : Instant} {store : Store} {tally : Tally} {a : Action} {reply : a.Reply} {store' : Store}
    {tally' : Tally} : inv store → Answered S now since store tally a reply store' tally' →
    c.grants ⟨now, store, a, reply⟩
  keeps {log : List Program.Event} {now since : Instant} {store : Store} {tally : Tally} {a : Action} {reply : a.Reply}
    {store' : Store} {tally' : Tally} : c.demands log a → inv store →
    Answered S now since store tally a reply store' tally' → inv store'
  releases {store : Store} (key : String) (token : Token) : inv store → inv (store.release key token).2
  others {now : Instant} {store : Store} {op : Operation} : S.others op → inv store → inv (store.perform now op).2

/-- **An invariant of entries** is upheld where whatever is written satisfies it and nobody else writes: there it is
left to show what is granted. -/
theorem Upholds.of_entries {S : Surroundings} {c : Program.Contract} {P : String → Entry → Prop}
    (others : ∀ op, S.others op → ∀ key e, op ≠ .set key e)
    (writes : ∀ {log : List Program.Event} {key : String} {e : Entry}, c.demands log (.operate (.set key e)) → P key e)
    (grants : ∀ {now since : Instant} {store : Store} {tally : Tally} {a : Action} {reply : a.Reply} {store' : Store}
      {tally' : Tally}, (∀ key e, store.Holds key e → P key e) →
        Answered S now since store tally a reply store' tally' → c.grants ⟨now, store, a, reply⟩) :
    Upholds S (fun s => ∀ key e, s.Holds key e → P key e) c where
  grants := grants
  keeps demanded holds answered := by
    cases answered with
    | operate op =>
      refine Store.all_perform _ (fun key e eq => ?_) holds
      cases eq
      exact writes demanded
    | _ => exact holds
  releases {store} key token holds := by
    have released (key' : String) (e : Entry) (eq : Operation.release key token = .set key' e) : P key' e := by
      cases eq
    exact Store.all_perform 0 released holds
  others other holds := Store.all_perform _ (fun key e eq => absurd eq (others _ other key e)) holds

/-- What is left of a request keeps to the contract of its visit. -/
def Task.Meets (c : Program.Contract) (promise : Visit → List Program.Event → Response → Prop) (t : Task) : Prop :=
  ∀ program, t.next = some program → program.Meets c (promise t.visit) t.log

/-- A request that may come in, whose log and what is left of it keep to a contract. -/
structure Task.Conforms (S : Surroundings) (c : Program.Contract)
    (promise : Visit → List Program.Event → Response → Prop) (t : Task) : Prop where
  comes : S.comes t.visit
  kept : Program.Kept c t.log
  meets : t.Meets c promise

/-- **Requests that keep to contracts one by one**, each to one of its own, keep to them together, however their actions
interleave. -/
theorem Reach.conforms {S : Surroundings} {inv : Store → Prop} {c : Visit → Program.Contract}
    {promise : Visit → List Program.Event → Response → Prop} (upholds : ∀ v, Upholds S inv (c v))
    (serve : ∀ v, S.comes v → (v.serve S.settings).Meets (c v) (promise v) []) {store : Store} (start : inv store)
    {p : Pool} (reach : Reach S store p) : inv p.store ∧ ∀ t ∈ p.tasks, t.Conforms S (c t.visit) promise := by
  -- what is done for nobody under way is the same for all contracts
  let anyone : Visit := ⟨{}, "", [], none, default⟩
  induction reach with
  | refl => exact ⟨start, fun t mem => nomatch mem⟩
  | @tail p _ _ step ih =>
    obtain ⟨holds, conforms⟩ := ih
    cases step with
    | pass duration => exact ⟨holds, conforms⟩
    | arrive comes =>
      refine ⟨holds, fun t mem => ?_⟩
      rcases List.mem_append.1 mem with mem | mem
      · exact conforms t mem
      · cases List.mem_singleton.1 mem
        refine ⟨comes, trivial, ?_⟩
        rintro program ⟨⟩
        exact serve _ comes
    | @turn i t action resume reply store' tally' here next answered =>
      obtain ⟨comes, kept, meets⟩ := conforms t (List.mem_of_getElem? here)
      obtain ⟨demanded, rest⟩ := meets _ next
      refine ⟨(upholds t.visit).keeps demanded holds answered, fun t' mem => ?_⟩
      rcases List.mem_or_eq_of_mem_set mem with mem | rfl
      · exact conforms t' mem
      · have granted := (upholds t.visit).grants holds answered
        refine ⟨comes, ⟨demanded, granted, kept⟩, ?_⟩
        rintro program ⟨⟩
        exact rest _ _ reply granted
    | @drop i t action resume here next suspends drops =>
      refine ⟨holds, fun t' mem => ?_⟩
      rcases List.mem_or_eq_of_mem_set mem with mem | rfl
      · exact conforms t' mem
      · obtain ⟨comes, kept, -⟩ := conforms t (List.mem_of_getElem? here)
        refine ⟨comes, kept, ?_⟩
        rintro program ⟨⟩
    | @retire i t r here next =>
      refine ⟨holds, fun t' mem => ?_⟩
      rcases List.mem_or_eq_of_mem_set mem with mem | rfl
      · exact conforms t' mem
      · obtain ⟨comes, kept, meets⟩ := conforms t (List.mem_of_getElem? here)
        exact ⟨comes, kept, meets⟩
    | settle _ answered =>
      refine ⟨?_, conforms⟩
      cases answered with
      | operate => exact (upholds anyone).releases _ _ holds
      | fault => exact holds
    | other others => exact ⟨(upholds anyone).others others holds, conforms⟩

/-- Requests that all keep to the same contract. -/
theorem Reach.meets {S : Surroundings} {inv : Store → Prop} {c : Program.Contract}
    {promise : Visit → List Program.Event → Response → Prop} (upholds : Upholds S inv c)
    (serve : ∀ v, S.comes v → (v.serve S.settings).Meets c (promise v) []) {store : Store} (start : inv store)
    {p : Pool} (reach : Reach S store p) : inv p.store ∧ ∀ t ∈ p.tasks, t.Meets c promise := by
  obtain ⟨holds, conforms⟩ := reach.conforms (fun _ => upholds) serve start
  exact ⟨holds, fun t mem => (conforms t mem).meets⟩

/-- **Each request plays its own program**, whatever the others do. -/
theorem Reach.plays {S : Surroundings} {store : Store} {p : Pool} (reach : Reach S store p) :
    ∀ t ∈ p.tasks, ∀ rest, t.next = some rest → (t.visit.serve S.settings).Plays t.log rest := by
  induction reach with
  | refl => exact fun t mem => nomatch mem
  | tail _ step ih =>
    cases step with
    | pass | settle | other => exact ih
    | arrive =>
      intro t mem rest next
      rcases List.mem_append.1 mem with mem | mem
      · exact ih t mem rest next
      · cases List.mem_singleton.1 mem
        cases next
        exact .start
    | turn here before =>
      intro t mem rest next
      rcases List.mem_or_eq_of_mem_set mem with mem | rfl
      · exact ih t mem rest next
      · cases next
        exact .answer _ _ _ (ih _ (List.mem_of_getElem? here) _ before)
    | drop here =>
      intro t mem rest next
      rcases List.mem_or_eq_of_mem_set mem with mem | rfl
      · exact ih t mem rest next
      · cases next
    | retire here =>
      intro t mem rest next
      rcases List.mem_or_eq_of_mem_set mem with mem | rfl
      · exact ih t mem rest next
      · exact ih _ (List.mem_of_getElem? here) rest next

end ResponseCache
