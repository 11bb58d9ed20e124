import ResponseCache.Proofs.Pool.Threads
import ResponseCache.Simulation.Session

/-!
# Sessions of requests are runs of a pool

A request to an application is served as a `Visit` (`App.serve_eq`). So the threads of a session that sends requests are
requests of a pool, which each has a place there once it has begun (`Seat`), and the whole session is a run of the pool:
what it answers are the responses that the pool comes to (`perform_reach`).
-/

namespace ResponseCache

open Http

/-! ## Requests to an application -/

namespace App

/-- What a request asks for, if it comes to a route that has a rule. -/
def visit? (app : App) (r : Request) : Option Visit :=
  match Route.dispatch app.routes r.method r.target.path with
  | .notFound => none
  | .wrongMethod template params =>
    if app.hasHandler template then
      (app.rules.find? r.method template).map fun rule => ⟨rule, template, params, none, r⟩
    else none
  | .found route params =>
    match route.endpoint with
    | .admin _ => none
    | .handler index =>
      (app.rules.find? r.method route.template).map fun rule => ⟨rule, route.template, params, some index, r⟩

/-- What becomes of the response behind the middleware. -/
def finish (app : App) (r : Request) (response : Response) : Response :=
  match Route.dispatch app.routes r.method r.target.path with
  | .found route _ => dropBody route r response
  | _ => response

/-- **An application serves** what a request asks for by the middleware. -/
theorem serve_eq {app : App} {r : Request} {v : Visit} (visit : app.visit? r = some v) :
    app.serve r = (fun response => .ok (app.finish r response)) <$> v.serve app.settings := by
  unfold visit? at visit
  split at visit
  · cases visit
  · next template params way =>
    have same : app.finish r = id := by
      funext response
      simp only [finish, way, id]
    rw [same]
    split at visit
    · next has =>
      obtain ⟨rule, found, rfl⟩ := Option.map_eq_some_iff.1 visit
      simp only [serve, way, refuse, has, if_true, serveHandler, found]
      rfl
    · cases visit
  · next route params way =>
    have drop : app.finish r = dropBody route r := by
      funext response
      simp only [finish, way]
    rw [drop]
    split at visit
    · cases visit
    · next index is =>
      obtain ⟨rule, found, rfl⟩ := Option.map_eq_some_iff.1 visit
      simp only [serve, way, is, serveHandler, found, bind_map_left]
      rfl

end App

namespace Simulation

open Relation (ReflTransGen)

variable {S : Surroundings} {tasks tasks' : List Task}

/-- What a session tells of a response. -/
def told (app : App) (r : Request) (response : Response) : Session.Finish :=
  Session.tell (.response (app.finish r response))

/-- **A request in a session** is served as it is in a pool. -/
theorem Session.begin_request {s : Session} {r : Request} {v : Visit} (visit : s.app.visit? r = some v)
    (limit : Option Millis) : s.begin (.request r limit) = (s, told s.app r <$> v.serve s.app.settings) := by
  have served : (do return Session.tellServed (← s.app.serve r) : Program Session.Finish) =
      told s.app r <$> v.serve s.app.settings := by
    rw [App.serve_eq visit, bind_map_left]
    rfl
  exact congrArg (s, ·) served

/-! ## Places -/

/-- The request at a place of a pool goes on as a slot does; a slot that waits has no place yet. -/
inductive Seat (S : Surroundings) (app : App) (tasks : List Task) : Option Nat → Slot → Prop
  | waiting (start : Instant) (limit : Option Millis) {r : Request} {v : Visit} : app.visit? r = some v → S.comes v →
      Seat S app tasks none (.waiting start (.request r limit))
  | running {i : Nat} {task : Task} {r : Request} {thread : Thread Session.Finish} : tasks[i]? = some task →
      app.visit? r = some task.visit → Follows S (told app r) task thread → Seat S app tasks (some i) (.running thread)
  | answered (time : Instant) {i : Nat} {task : Task} {r : Request} {response : Response} : tasks[i]? = some task →
      app.visit? r = some task.visit → task.next = some (.done response) →
      Seat S app tasks (some i) (.ended time (.response (app.finish r response)))
  | crashed (time : Instant) (reason : String) {i : Nat} : i < tasks.length →
      Seat S app tasks (some i) (.ended time (.crashed reason))
  | cancelled (time : Instant) {i : Nat} : i < tasks.length → Seat S app tasks (some i) (.ended time .cancelled)

namespace Seat

variable {app : App} {slot : Slot}

theorem lt {i : Nat} (seat : Seat S app tasks (some i) slot) : i < tasks.length := by
  cases seat with
  | running here => exact (List.getElem?_eq_some_iff.1 here).1
  | answered _ here => exact (List.getElem?_eq_some_iff.1 here).1
  | crashed _ _ lt => exact lt
  | cancelled _ lt => exact lt

/-- A place that is left alone is kept. -/
theorem kept {place : Option Nat} (seat : Seat S app tasks place slot)
    (same : ∀ i, place = some i → tasks'[i]? = tasks[i]?) : Seat S app tasks' place slot := by
  have within : ∀ i, place = some i → i < tasks.length → i < tasks'.length := fun i eq lt =>
    (List.getElem?_eq_some_iff.1 ((same i eq).trans (List.getElem?_eq_getElem lt))).1
  cases seat with
  | waiting start limit visit comes => exact .waiting start limit visit comes
  | running here visit follows => exact .running ((same _ rfl).trans here) visit follows
  | answered time here visit next => exact .answered time ((same _ rfl).trans here) visit next
  | crashed time reason lt => exact .crashed time reason (within _ rfl lt)
  | cancelled time lt => exact .cancelled time (within _ rfl lt)

end Seat

/-- The slots of a session have places of their own in a pool. -/
structure Seated (S : Surroundings) (app : App) (s : Session) (slots : List Slot) (tasks : List Task)
    (place : Nat → Option Nat) : Prop where
  allows : Allows S s.world
  same : s.app = app
  settings : S.settings = app.settings
  sweepers : s.sweepers = []
  seat : ∀ j slot, slots[j]? = some slot → Seat S app tasks (place j) slot
  within : ∀ j i, place j = some i → i < tasks.length
  apart : ∀ j k i, place j = some i → place k = some i → j = k

/-! ## Turns in a session -/

/-- What a turn does to a session and to the place of its slot. -/
structure Moves (S : Surroundings) (s : Session) (tasks : List Task) (place : Option Nat) (out : Session × Slot)
    (tasks' : List Task) (place' : Option Nat) : Prop where
  reach : ReflTransGen (Pool.Step S) (s.world.pool tasks) (out.1.world.pool tasks')
  allows : Allows S out.1.world
  app : out.1.app = s.app
  sweepers : out.1.sweepers = s.sweepers
  seat : Seat S s.app tasks' place' out.2
  longer : tasks.length ≤ tasks'.length
  others : ∀ k < tasks.length, place' ≠ some k → tasks'[k]? = tasks[k]?
  place : place' = place ∨ place' = some tasks.length

theorem turn_moves (drops : ∀ v, S.mayDrop v) {s : Session} (allows : Allows S s.world) {i : Nat} {task : Task}
    (here : tasks[i]? = some task) {r : Request} (visit : s.app.visit? r = some task.visit)
    {t : Thread Session.Finish} (follows : Follows S (told s.app r) task t) :
    ∃ tasks', Moves S s tasks (some i) (s.turn t) tasks' (some i) := by
  obtain ⟨task', reach, allows', visit', becomes⟩ := turn_reach drops allows here follows
  have lt : i < (tasks.set i task').length := by
    rw [List.length_set]
    exact (List.getElem?_eq_some_iff.1 here).1
  have here' : (tasks.set i task')[i]? = some task' := List.getElem?_set_self (List.getElem?_eq_some_iff.1 here).1
  have longer : tasks.length ≤ (tasks.set i task').length := Nat.le_of_eq List.length_set.symm
  have others : ∀ k < tasks.length, some i ≠ some k → (tasks.set i task')[k]? = tasks[k]? := fun k _ ne =>
    List.getElem?_set_ne fun eq => ne (congrArg some eq)
  rw [← visit'] at visit
  refine ⟨tasks.set i task', ?_⟩
  unfold Session.turn
  generalize t.turn s.world = out at reach allows' becomes
  obtain ⟨world, outcome⟩ := out
  cases becomes with
  | running follows' => exact ⟨reach, allows', rfl, rfl, .running here' visit follows', longer, others, .inl rfl⟩
  | finished next => exact ⟨reach, allows', rfl, rfl, .answered _ here' visit next, longer, others, .inl rfl⟩
  | crashed reason => exact ⟨reach, allows', rfl, rfl, .crashed _ reason lt, longer, others, .inl rfl⟩
  | cutOff => exact ⟨reach, allows', rfl, rfl, .cancelled _ lt, longer, others, .inl rfl⟩

/-- **A turn of a slot** is a run of the pool. -/
theorem turnSlot_moves (drops : ∀ v, S.mayDrop v) {s : Session} (allows : Allows S s.world)
    (settings : S.settings = s.app.settings) {place : Option Nat} {slot : Slot}
    (seat : Seat S s.app tasks place slot) :
    ∃ tasks' place', Moves S s tasks place (s.turnSlot slot) tasks' place' := by
  cases seat with
  | @waiting start limit r v visit comes =>
    -- the clock goes on to the start, and the request comes in at the end of the pool
    let later : Session := { s with world := { s.world with now := max s.world.now start } }
    have pass : Pool.Step S (s.world.pool tasks) (later.world.pool tasks) := pass_step s.world tasks start
    obtain ⟨task, arrive, visit', follows⟩ := arrive_follows (told s.app r) comes later.world tasks limit
    have here : (tasks ++ [task])[tasks.length]? = some task := List.getElem?_concat_length
    have begins : s.turnSlot (.waiting start (.request r limit)) =
        later.turn
          ⟨later.world.now, limit.map (later.world.now + ·), [], .ok (told s.app r <$> v.serve S.settings)⟩ := by
      have begins : later.begin (.request r limit) = (later, told s.app r <$> v.serve S.settings) := by
        rw [settings]
        exact Session.begin_request (s := later) visit limit
      rw [Session.turnSlot, begins]
      rfl
    rw [← visit'] at visit
    have allows : Allows S later.world := ⟨allows.refusals, allows.replies⟩
    obtain ⟨tasks', moves⟩ := turn_moves drops allows here visit follows
    rw [begins]
    have longer : tasks.length + 1 ≤ tasks'.length := by
      have longer := moves.longer
      rwa [List.length_append, List.length_singleton] at longer
    refine ⟨tasks', some tasks.length, .head pass (.head arrive moves.reach), moves.allows, moves.app, moves.sweepers,
      moves.seat, Nat.le_of_succ_le longer, fun k lt ne => ?_, .inr rfl⟩
    have lt' : k < (tasks ++ [task]).length := by
      rw [List.length_append]
      exact Nat.lt_add_right _ lt
    rw [moves.others k lt' ne, List.getElem?_append_left lt]
  | @running i task r thread here visit follows =>
    obtain ⟨tasks', moves⟩ := turn_moves drops allows here visit follows
    exact ⟨tasks', some i, moves⟩
  | answered time here visit next =>
    exact ⟨tasks, _, .refl, allows, rfl, rfl, .answered time here visit next, Nat.le_refl _, fun _ _ _ => rfl, .inl rfl⟩
  | crashed time reason lt =>
    exact ⟨tasks, _, .refl, allows, rfl, rfl, .crashed time reason lt, Nat.le_refl _, fun _ _ _ => rfl, .inl rfl⟩
  | cancelled time lt =>
    exact ⟨tasks, _, .refl, allows, rfl, rfl, .cancelled time lt, Nat.le_refl _, fun _ _ _ => rfl, .inl rfl⟩

/-- A slot that has its turn keeps its place or gets one of its own. -/
theorem Seated.turn {app : App} {s : Session} {slots : List Slot} {place : Nat → Option Nat}
    (seated : Seated S app s slots tasks place) (drops : ∀ v, S.mayDrop v) {j : Nat} {slot : Slot}
    (here : slots[j]? = some slot) : ∃ tasks' place',
      ReflTransGen (Pool.Step S) (s.world.pool tasks) ((s.turnSlot slot).1.world.pool tasks') ∧
        Seated S app (s.turnSlot slot).1 (slots.set j (s.turnSlot slot).2) tasks' place' := by
  obtain ⟨allows, rfl, settings, sweepers, seat, within, apart⟩ := seated
  obtain ⟨tasks', at', moves⟩ := turnSlot_moves drops allows settings (seat j slot here)
  have free : ∀ k i, k ≠ j → place k = some i → at' ≠ some i := by
    intro k i ne eq eq'
    rcases moves.place with same | new
    · exact ne (apart k j i eq (same ▸ eq'))
    · cases new.symm.trans eq'
      exact Nat.lt_irrefl _ (within k _ eq)
  refine ⟨tasks', fun k => if k = j then at' else place k, moves.reach, moves.allows, moves.app, settings,
    moves.sweepers.trans sweepers, ?_, ?_, ?_⟩
  · intro k slot' here'
    by_cases eq : k = j
    · rw [if_pos eq]
      rw [eq, List.getElem?_set_self (List.getElem?_eq_some_iff.1 here).1] at here'
      cases here'
      exact moves.seat
    · rw [if_neg eq]
      rw [List.getElem?_set_ne (Ne.symm eq)] at here'
      exact (seat k slot' here').kept fun i at_i => moves.others i (within k i at_i) (free k i eq at_i)
  · intro k i at_i
    split at at_i
    · subst at_i
      exact moves.seat.lt
    · exact Nat.lt_of_lt_of_le (within k i at_i) moves.longer
  · intro k l i at_k at_l
    split at at_k <;> split at at_l
    · next eq eq' => exact eq.trans eq'.symm
    · next eq ne => exact absurd at_k (free l i ne at_l)
    · next ne eq => exact absurd at_l (free k i ne at_k)
    · exact apart k l i at_k at_l

/-- **A session of requests** is a run of the pool, however many turns it gets. -/
theorem runSlots_reach {app : App} (drops : ∀ v, S.mayDrop v) (turns : Nat) : ∀ {s : Session} {slots : List Slot}
    {tasks : List Task} {place : Nat → Option Nat}, Seated S app s slots tasks place → ∃ tasks' place',
      ReflTransGen (Pool.Step S) (s.world.pool tasks) ((s.runSlots slots turns).1.world.pool tasks') ∧
        Seated S app (s.runSlots slots turns).1 (s.runSlots slots turns).2 tasks' place' := by
  induction turns with
  | zero =>
    intro s slots tasks place seated
    rw [Session.runSlots]
    exact ⟨tasks, place, .refl, seated⟩
  | succ turns ih =>
    intro s slots tasks place seated
    rw [Session.runSlots, seated.sweepers]
    cases earliest (slots.map Slot.due?) with
    | none => exact ⟨tasks, place, .refl, seated⟩
    | some found =>
      obtain ⟨j, due⟩ := found
      -- there are no sweepers, so the turn goes to the slot
      change ∃ tasks' place', ReflTransGen (Pool.Step S) (s.world.pool tasks)
          ((Session.runSlots.runSlot s slots j turns).1.world.pool tasks') ∧
        Seated S app (Session.runSlots.runSlot s slots j turns).1 (Session.runSlots.runSlot s slots j turns).2 tasks'
          place'
      rw [Session.runSlots.runSlot]
      cases here : slots[j]? with
      | none => exact ⟨tasks, place, .refl, seated⟩
      | some slot =>
        obtain ⟨tasks', place', reach, seated'⟩ := seated.turn drops here
        obtain ⟨tasks'', place'', reach', seated''⟩ := ih seated'
        exact ⟨tasks'', place'', reach.trans reach', seated''⟩

/-- What a session answers to a request: the response that the pool has come to, unless the request was not answered. -/
def Told (app : App) (tasks : List Task) (answer : Answer) : Prop :=
  (∃ task ∈ tasks, ∃ r response, app.visit? r = some task.visit ∧ task.next = some (.done response) ∧
    answer = .response (app.finish r response)) ∨ (∃ reason, answer = .crashed reason) ∨ answer = .cancelled

theorem Seat.told {app : App} {place : Option Nat} {time : Instant} {answer : Answer}
    (seat : Seat S app tasks place (.ended time answer)) : Told app tasks answer := by
  cases seat with
  | answered time here visit next => exact .inl ⟨_, List.mem_of_getElem? here, _, _, visit, next, rfl⟩
  | crashed time reason lt => exact .inr (.inl ⟨reason, rfl⟩)
  | cancelled time lt => exact .inr (.inr rfl)

theorem create_pool {app : App} {probe : Option Probe} {scripts : List Script} {s : Session}
    (create : Session.create app probe scripts = .ok s) : s.app = app ∧ s.sweepers = [] ∧
      ∃ store, Store.create app.settings.maxEntries = .ok store ∧ s.world.pool [] = { store := store } := by
  unfold Session.create at create
  cases created : Store.create app.settings.maxEntries with
  | error e =>
    rw [created] at create
    cases create
  | ok store =>
    rw [created] at create
    cases create
    exact ⟨rfl, rfl, store, rfl, rfl⟩

/-- **What a session of requests answers** are responses of a pool that can be reached. -/
theorem perform_reach {app : App} {probe : Option Probe} {scripts : List Script} {s : Session}
    (create : Session.create app probe scripts = .ok s) (drops : ∀ v, S.mayDrop v) (allows : Allows S s.world)
    (settings : S.settings = app.settings) {steps : List (Millis × Step)}
    (requests : ∀ step ∈ steps, ∃ r limit v, step.2 = .request r limit ∧ app.visit? r = some v ∧ S.comes v) :
    ∃ store p, Store.create app.settings.maxEntries = .ok store ∧ Reach S store p ∧
      ∀ answer ∈ (s.perform steps).2, Told app p.tasks answer.2 := by
  obtain ⟨same, sweepers, store, created, start⟩ := create_pool create
  have seated : Seated S app s (steps.map fun step => .waiting (s.world.now + step.1) step.2) [] fun _ => none := by
    refine ⟨allows, same, settings, sweepers, fun j slot here => ?_, fun _ _ eq => ?_, fun _ _ _ eq => ?_⟩
    · obtain ⟨⟨delay, step⟩, mem, rfl⟩ := List.mem_map.1 (List.mem_of_getElem? here)
      obtain ⟨r, limit, v, rfl, visit, comes⟩ := requests _ mem
      exact .waiting _ limit visit comes
    · cases eq
    · cases eq
  obtain ⟨tasks, place, reach, seated'⟩ := runSlots_reach drops Session.maxTurns seated
  rw [start] at reach
  refine ⟨store, _, created, reach, fun answer mem => ?_⟩
  unfold Session.perform at mem
  obtain ⟨slot, mem, ended⟩ := List.mem_filterMap.1 mem
  obtain ⟨j, here⟩ := List.mem_iff_getElem?.1 mem
  have seat := seated'.seat j slot here
  split at ended
  · cases ended
    exact seat.told
  · cases ended

end Simulation

end ResponseCache
