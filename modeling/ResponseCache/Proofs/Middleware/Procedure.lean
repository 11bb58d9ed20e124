import ResponseCache.Proofs.Middleware.Facts

/-!
# What a request does, action by action

Whatever answers it gets, a request tries to lock its key once at most, right after a look-up that found nothing
(`attempt_spec`). A lock that it is given it takes on at once, and gives back at once when it has given up its guard.
In between it runs the handler of its endpoint once at most, and for a reason (`Way`), and then writes what `entryOf`
says, once and just when its computation is one that stores (`Storing`) and the response is one to be stored
(`Storable`). It counts its way when that is decided, and a failure of the store when that is met. How it can be done
is told by `Finished`.

All that is a `contract` without grants. A request whose body cannot be read for its key does nothing at all
(`serve_of_not_readable`).
-/

namespace ResponseCache

open Http
open Program (Event Heard Meets heldBy)

/-! ## The body of a request -/

/-- The request with its body in one piece. -/
def Http.Request.whole (r : Request) : Request := { r with body := ⟨[r.body.bytes], r.body.failure⟩ }

/-- The body of a request whose key depends on it ends well and is short enough to be read. A request of which that is
not so is turned away (`Procedure.serve_of_not_readable`). -/
def Visit.Readable (v : Visit) : Prop :=
  v.rule.key.needsBody = true → v.request.body.failure = none ∧ v.request.body.size ≤ Middleware.maxKeyBody

namespace Procedure

/-- The body of the request can be read as far as its key needs it, as the middleware finds out. -/
def readable (v : Visit) : Bool := (Middleware.capture v.rule.key v.template v.params v.request).isSome

/-- What is read of a request leaves the request as it is, but for the pieces of its body. -/
theorem capture_whole {v : Visit} (readable : v.Readable) : ∃ facts request,
    Middleware.capture v.rule.key v.template v.params v.request = some (facts, request) ∧
      request.whole = v.request.whole := by
  unfold Middleware.capture
  dsimp only
  split
  · exact ⟨_, _, rfl, rfl⟩
  · next needs =>
    obtain ⟨whole, short⟩ := readable (by simpa using needs)
    rw [Body.buffer_of_whole whole short]
    refine ⟨_, _, rfl, ?_⟩
    simp only [Request.whole, Body.bytes_ofBytes, whole]
    rfl

theorem readable_iff {v : Visit} : readable v = true ↔ v.Readable := by
  constructor
  · intro captured needs
    unfold readable Middleware.capture at captured
    rw [needs] at captured
    cases read : v.request.body.buffer Middleware.maxKeyBody with
    | complete bytes =>
      obtain ⟨arrives, le⟩ := Body.buffer_eq_complete_iff.1 read
      obtain ⟨whole, rfl⟩ := Body.collect_eq_ok arrives
      exact ⟨whole, Body.size_bytes v.request.body ▸ le⟩
    | _ =>
      rw [read] at captured
      cases captured
  · intro read
    obtain ⟨facts, request, captured, -⟩ := capture_whole read
    rw [readable, captured]
    rfl

/-- **A request whose body cannot be read** for its key is turned away at once: the store is not asked, nothing is
counted, and the response has no mark. -/
theorem serve_of_not_readable {v : Visit} (unread : ¬ v.Readable) (settings : Settings) :
    v.serve settings = .done (.bare 413) := by
  have uncaptured : Middleware.capture v.rule.key v.template v.params v.request = none := by
    rw [← Option.not_isSome_iff_eq_none]
    exact fun captured => unread (readable_iff.1 captured)
  rw [Visit.serve, Middleware.serve, uncaptured]
  rfl

/-! ## Waiting -/

/-- A request that waits has looked for a value so often and not found one, each time before its deadline, and has
slept for a little after each look. -/
inductive Rounds (key : String) (deadline : Instant) : Nat → List Event → Prop
  | none : Rounds key deadline 0 []
  | more {n : Nat} {rounds : List Event} {looks reads wakes told : Instant} {s s' s'' : Store}
      {reply : Except CacheError (Option Entry)} : Rounds key deadline n rounds →
      (∀ value, looked reply ≠ .ok (some value)) → told < deadline →
      Rounds key deadline (n + 1) (⟨wakes, s'', .sleep (min Service.pollInterval (deadline - told)), ()⟩ ::
        ⟨reads, s', .clock, told⟩ :: ⟨looks, s, .operate (.get key), reply⟩ :: rounds)

/-- A request has waited for `timeout` and found no value, or has looked for one as often as it may. -/
inductive Vain (key : String) (timeout : Millis) (log : List Event) : Prop
  | late {n : Nat} {rounds : List Event} {begins start looks reads told : Instant} {s s' s'' : Store}
      {reply : Except CacheError (Option Entry)} : Rounds key (start + timeout) n rounds →
      (∀ value, looked reply ≠ .ok (some value)) → start + timeout ≤ told →
      (⟨reads, s'', .clock, told⟩ :: ⟨looks, s', .operate (.get key), reply⟩ ::
        (rounds ++ [⟨begins, s, .clock, start⟩])) <:+: log → Vain key timeout log
  | worn {rounds : List Event} {begins start : Instant} {s : Store} :
      Rounds key (start + timeout) (timeout / Service.pollInterval + 2) rounds →
      (rounds ++ [⟨begins, s, .clock, start⟩]) <:+: log → Vain key timeout log

theorem Vain.mono {key : String} {timeout : Millis} {log log' : List Event} (suffix : log <:+ log') :
    Vain key timeout log → Vain key timeout log'
  | .late rounds missed passed part => .late rounds missed passed (part.trans suffix.isInfix)
  | .worn rounds part => .worn rounds (part.trans suffix.isInfix)

/-! ## What is demanded -/

section Demands

variable (settings : Settings) (v : Visit)

/-- The computation is one that stores: the key was locked, or it was found locked and the policy is to wait. -/
def Storing (log : List Event) : Prop :=
  (∃ token, .ok (some token) ∈ attempts log) ∨ (.ok none ∈ attempts log ∧ v.policy settings = .wait)

/-- A response to be stored: a success whose body can be read and is not too long. -/
def Storable (r : Response) (bytes : ByteArray) : Prop :=
  r.isSuccess = true ∧ r.body.collect = .ok bytes ∧ bytes.size ≤ settings.maxResponseBytes

/-- The entry of a response, written at an instant. -/
def entryOf (r : Response) (bytes : ByteArray) (now : Instant) : Entry :=
  let packed := (Middleware.stored r bytes).pack v.rule.compress settings.compressionThreshold
  ⟨packed.2, now + min (v.rule.ttl.getD settings.defaultTtl) Service.maxTtl, v.rule.tags, packed.1⟩

/-- There was a write just when there was something to store. -/
def Complete (log : List Event) : Prop :=
  writes log ≠ [] ↔ Storing settings v log ∧ ∃ r ∈ runs log, ∃ bytes, Storable settings r bytes

/-- The ways to a computation: with each what was counted, how the attempt to lock came out, and whether the first
look-up failed. -/
inductive Way : Computation → List Outcome → List (Except CacheError (Option Token)) → Bool → Prop
  /-- Not all that is selected of the request can be covered by a key. -/
  | keyless : v.key? settings = none → Way .bypassing [.bypass] [] false
  /-- The look-up failed. -/
  | unseen : Way .bypassing [.bypass, .backendError] [] true
  /-- The attempt to lock failed. -/
  | unlocked (reason : CacheError) : Way .bypassing [.bypass, .backendError] [.error reason] false
  /-- The lock was given. -/
  | locked (g : Guard) : v.key? settings = some g.key → Way (.locked g) [.miss] [.ok (some g.token)] false
  /-- The lock is held by another request, and waiting for a value was in vain. -/
  | overdue : v.policy settings = .wait → Way .overdue [.miss] [.ok none] false
  /-- The lock is held by another request, and that does not matter. -/
  | bypassed : v.policy settings = .bypass → Way .bypassing [.bypass] [.ok none] false

/-- A request is about to compute a response. -/
def Undertaken (c : Computation) (log : List Event) : Prop :=
  ∃ os a l, Way settings v c os a l ∧ Stands log c.guard.toList ⟨booked settings os, a, [], [], l⟩ ∧
    (c = .overdue → ∀ key, v.key? settings = some key → Vain key (v.timeout settings) log)

/-- What is demanded of a request. -/
def Demands (log : List Event) : Action → Prop
  | .operate (.get key) => due log = none ∧ v.key? settings = some key
  | .operate (.acquire key timeout) => v.key? settings = some key ∧ timeout = v.timeout settings ∧
      ∃ now store, log = [⟨now, store, .operate (.get key), .ok none⟩]
  | .operate (.set key e) => v.key? settings = some key ∧ writes log = [] ∧ Storing settings v log ∧
      ∃ r bytes read, (∃ now store rest, log = ⟨now, store, .clock, read⟩ :: rest) ∧ runs log = [r] ∧
        Storable settings r bytes ∧ e = entryOf settings v r bytes read
  | .operate (.release key token) => due log = some (.operate (.release key token))
  | .hold g => due log = some (.hold g)
  | .disarm g => due log = none ∧ heldBy log = [g] ∧ (v.endpoint = none ∨ runs log ≠ []) ∧ Complete settings v log
  | .handle endpoint request => due log = none ∧ v.endpoint = some endpoint ∧ runs log = [] ∧
      (∃ facts, Middleware.capture v.rule.key v.template v.params v.request = some (facts, request)) ∧
      ∃ c, Undertaken settings v c log
  | .count _ => due log = none ∧ settings.enableStats = true
  | .clock | .sleep _ => due log = none
  | _ => False

/-- The demands on a request, whatever it is answered. -/
def contract : Program.Contract := ⟨Demands settings v, fun _ => True⟩

/-! ## What comes of it -/

/-- The response comes from the handler, if there is one. -/
def Answers (r : Response) (rs : List Response) : Prop := rs = [r] ∨ rs = [] ∧ v.endpoint = none ∧ r = .bare 405

/-- What was written of a response: nothing, or it was to be stored. -/
inductive Wrote (r : Response) : List (String × Entry × Except CacheError Unit) → Prop
  | nothing : (∀ bytes, ¬ Storable settings r bytes) → Wrote r []
  | once {bytes : ByteArray} (key : String) (e : Entry) (reply : Except CacheError Unit) : Storable settings r bytes →
      Wrote r [(key, e, reply)]

/-- How a stored value is replayed: with each mark what was counted, and how the attempt to lock came out. -/
inductive Replays : Mark → Outcome → List (Except CacheError (Option Token)) → Prop
  | hit : Replays .hit .hit []
  | wait : Replays .wait .wait [.ok none]

/-- What is handed on for a response. A success whose body breaks off before it is found too long becomes a failure. -/
structure Handed (r handed : Response) : Prop where
  success : r.isSuccess = false → handed = r
  whole : r.body.failure = none → handed.HandsOn r

/-- How a computed response is marked: as a bypass if a success that was to be stored could not be. -/
def markOf (c : Computation) (r : Response) (ws : List (String × Entry × Except CacheError Unit)) : Mark :=
  if c.store && r.isSuccess && ws.all (failed ·.2.2) then .bypass else c.mark

/-- A request that is done. -/
inductive Finished (log : List Event) (out : Response) : Prop
  /-- Its body could not be read. -/
  | unread : readable v = false → log = [] → out = .bare 413 → Finished log out
  /-- It was answered with a stored value. -/
  | replayed {key : String} {value : StoredResponse} {m : Mark} {o : Outcome}
      {a : List (Except CacheError (Option Token))} : readable v = true → v.key? settings = some key →
      Found key value log → Replays m o a → Stands log [] ⟨booked settings [o], a, [], [], false⟩ →
      out = Middleware.replay m value → Finished log out
  /-- It was refused, since its key is locked. -/
  | refused : readable v = true → v.policy settings = .fail →
      Stands log [] ⟨booked settings [.rejection], [.ok none], [], [], false⟩ →
      out = (CacheError.lockContended (Service.retryAfter (v.timeout settings))).response → Finished log out
  /-- It was answered by its handler. -/
  | answered {c : Computation} {os : List Outcome} {a : List (Except CacheError (Option Token))} {l : Bool}
      {r handed : Response} {rs : List Response} {ws : List (String × Entry × Except CacheError Unit)} :
      readable v = true → Way settings v c os a l → Answers v r rs →
      (if c.store then Wrote settings r ws else ws = []) →
      Stands log [] ⟨booked settings ((if ws.any (failed ·.2.2) then [.backendError] else []) ++ os), a, rs, ws, l⟩ →
      Handed r handed → out = Middleware.mark (markOf c r ws) handed → Finished log out

end Demands

variable {settings : Settings} {v : Visit} {log log' : List Event} {key : String}

/-! ## What the demands tell of a log -/

section Logs

variable {g : Guard}

/-- The handler runs once at most. -/
theorem length_runs_le : ∀ {log : List Event}, Program.Kept (contract settings v) log → (runs log).length ≤ 1
  | [], _ => Nat.zero_le 1
  | ⟨now, s, action, reply⟩ :: log, ⟨demanded, _, kept⟩ => by
    have le := length_runs_le kept
    cases action with
    | handle endpoint request =>
      obtain ⟨-, -, none, -⟩ := demanded
      show (reply :: runs log).length ≤ 1
      rw [none]
      exact Nat.le_refl 1
    | _ => exact le

variable (kept : Program.Kept (contract settings v) log)
include kept

/-- A lock is asked for right after a look-up that found nothing, and that comes first. -/
theorem attempt_spec {now : Instant} {s : Store} {timeout : Millis} {reply : Except CacheError (Option Token)}
    (tried : (⟨now, s, .operate (.acquire key timeout), reply⟩ : Event) ∈ log) : timeout = v.timeout settings ∧
      ∃ later now' s', log = later ++ [⟨now, s, .operate (.acquire key timeout), reply⟩,
        ⟨now', s', .operate (.get key), .ok none⟩] := by
  obtain ⟨later, _, rfl, ⟨-, same, now', s', rfl⟩, -⟩ := kept.of_mem tried
  exact ⟨same, later, now', s', rfl⟩

/-- What was tried was to lock the key of the request. -/
theorem tried_spec {reply : Except CacheError (Option Token)} (tried : reply ∈ attempts log) : ∃ key,
    v.key? settings = some key ∧ Heard (.operate (.acquire key (v.timeout settings))) reply log := by
  obtain ⟨key, timeout, now, store, mem⟩ := mem_attempts.1 tried
  obtain ⟨_, _, -, ⟨own, rfl, -⟩, -⟩ := kept.of_mem mem
  exact ⟨key, own, now, store, mem⟩

/-- What has answered is the handler of the endpoint, to the request as it was read. -/
theorem handled_spec {r : Response} (ran : r ∈ runs log) : ∃ endpoint request, v.endpoint = some endpoint ∧
    (∃ facts, Middleware.capture v.rule.key v.template v.params v.request = some (facts, request)) ∧
    Heard (.handle endpoint request) r log := by
  obtain ⟨endpoint, request, now, store, mem⟩ := mem_runs.1 ran
  obtain ⟨_, _, -, ⟨-, has, -, captured, -⟩, -⟩ := kept.of_mem mem
  exact ⟨endpoint, request, has, captured, now, store, mem⟩

/-- Who took on a guard was given its lock. -/
theorem acquired_of_hold (took : Heard (.hold g) () log) : ∃ now store,
    (⟨now, store, .operate (.acquire g.key (v.timeout settings)), .ok (some g.token)⟩ : Event) ∈ log := by
  obtain ⟨now, store, mem⟩ := took
  obtain ⟨later, earlier, rfl, next, kept⟩ := kept.of_mem mem
  obtain ⟨now', store', timeout, rest, rfl⟩ := given_of_due next
  obtain ⟨-, rfl, -⟩ := kept.1
  exact ⟨now', store', by simp⟩

/-- Who has released a lock had given up its guard, when everything else was done. -/
theorem disarmed_of_released {token : Token} {now : Instant} {s : Store} {reply : Except CacheError Unit}
    (released : (⟨now, s, .operate (.release key token), reply⟩ : Event) ∈ log) : ∃ rest, rest <:+ log ∧
      heldBy rest = [⟨key, token⟩] ∧ (v.endpoint = none ∨ runs rest ≠ []) ∧ Complete settings v rest ∧
      Program.Kept (contract settings v) rest := by
  obtain ⟨later, _, rfl, next, kept⟩ := kept.of_mem released
  obtain ⟨_, _, rest, rfl⟩ := disarmed_of_due (g := ⟨key, token⟩) next
  obtain ⟨⟨-, held, ran, complete⟩, -, kept⟩ := kept
  exact ⟨rest, (List.suffix_append_of_suffix ((List.suffix_cons ..).trans (List.suffix_cons ..))), held, ran, complete,
    kept⟩

end Logs

/-! ## What the ways tell -/

section Ways

variable {c : Computation} {os os' : List Outcome} {a : List (Except CacheError (Option Token))} {l : Bool}
  {held : List Guard} {r : Response} {rs : List Response} {ws : List (String × Entry × Except CacheError Unit)}

/-- A computation stores if its request was given the lock, or waited in vain. -/
theorem Way.storing (way : Way settings v c os a l) (tried : attempts log = a) :
    c.store = true ↔ Storing settings v log := by
  rw [Storing, tried]
  cases way with
  | overdue policy => simp [Computation.overdue, policy]
  | bypassed policy => simp [Computation.bypassing, policy]
  | locked => simp [Computation.locked]
  | keyless | unseen | unlocked => simp [Computation.bypassing]

theorem Way.mark (way : Way settings v c os a l) : c.mark = if c.store then .miss else .bypass := by
  cases way <;> rfl

/-- There was a write just when there was something to store. -/
theorem complete_of_answered (way : Way settings v c os a l) (answers : Answers v r rs)
    (written : if c.store then Wrote settings r ws else ws = []) (stands : Stands log held ⟨os', a, rs, ws, l⟩) :
    Complete settings v log := by
  rw [Complete, stands.writes, stands.runs, ← way.storing stands.attempts]
  show ws ≠ [] ↔ c.store = true ∧ ∃ r ∈ rs, ∃ bytes, Storable settings r bytes
  split at written
  · next stores =>
    cases written with
    | nothing unfit =>
      refine iff_of_false (fun wrote => wrote rfl) ?_
      rintro ⟨-, r', mem, bytes, storable⟩
      rcases answers with rfl | ⟨rfl, -⟩
      · cases List.mem_singleton.1 mem
        exact unfit bytes storable
      · cases mem
    | once key e reply storable =>
      refine iff_of_true nofun ⟨stores, r, ?_, _, storable⟩
      rcases answers with rfl | ⟨-, -, rfl⟩
      · exact List.mem_singleton_self r
      · cases storable.1
  · next other => exact iff_of_false (fun wrote => wrote written) fun stores => other stores.1

end Ways

/-! ## Requests that are done -/

namespace Finished

variable {out : Response} (finished : Finished settings v log out)
include finished

theorem settled : due log = none := by
  cases finished with
  | unread _ start => rw [start]; rfl
  | replayed _ _ _ _ stands | refused _ _ stands | answered _ _ _ _ stands => exact stands.settled

theorem free : heldBy log = [] := by
  cases finished with
  | unread _ start => rw [start]; rfl
  | replayed _ _ _ _ stands | refused _ _ stands | answered _ _ _ _ stands => exact stands.held

/-- There was a write just when there was something to store. -/
theorem complete : Complete settings v log := by
  have idle : runs log = [] → writes log = [] → Complete settings v log := fun ran wrote =>
    iff_of_false (fun written => written wrote) fun ⟨_, _, mem, _⟩ => nomatch ran ▸ mem
  cases finished with
  | unread _ start => exact idle (by rw [start]; rfl) (by rw [start]; rfl)
  | replayed _ _ _ _ stands | refused _ _ stands => exact idle stands.runs stands.writes
  | answered _ way answers written stands => exact complete_of_answered way answers written stands

end Finished

end Procedure

end ResponseCache
