import ResponseCache.Proofs.Middleware.Faith
import ResponseCache.Proofs.Middleware.Serving

/-!
# What the middleware does for a request

Whatever a request meets with, it works on its own key only. It runs the handler at most once, and only for a reason:
it holds the lock of the key, or it has found the lock held and its policy lets it compute all the same, or the store
failed it (`Cause`). What it writes stands for the response of the handler that it ran (`Origin`), and what it
releases it took before. All that is a contract of its visit (`contract`). It follows from the procedure of requests
and from what the answers of a store that others do not write to are known to be, such as that entries that are found
can be read (`Grants`). So serving keeps to it (`serve_meets`), and a response that is marked as replayed shows what a
look-up found (`Promise`).
-/

namespace ResponseCache

open Http
open Program (Event Heard Meets Timely latest heldBy)
open Procedure (Found Rounds Vain Undertaken Finished looked runs lookupFails lookupFailed)

namespace Conduct

/-! ## What logs tell -/

section Logs

variable (settings : Settings) (v : Visit) (key : String) (timeout : Millis)

/-- The key was looked up, with this result. -/
inductive LookedUp : Event → Except CacheError (Option StoredResponse) → Prop
  | found {now : Instant} {store : Store} {entry : Entry} {value : StoredResponse} : entry.unpack = .ok value →
      LookedUp ⟨now, store, .operate (.get key), .ok (some entry)⟩ (.ok (some value))
  | missing (now : Instant) (store : Store) : LookedUp ⟨now, store, .operate (.get key), .ok none⟩ (.ok none)
  | failed (now : Instant) (store : Store) (reason : CacheError) :
      LookedUp ⟨now, store, .operate (.get key), .error reason⟩ (.error reason)

/-- The key was looked up, and no value came of it. -/
def Misses (e : Event) : Prop := ∃ result, LookedUp key e result ∧ ∀ value, result ≠ .ok (some value)

/-- A request looks the key up again and again from `start` on, with a short sleep after each look-up, and has not
seen a value. -/
inductive Watch (start : Instant) : List Event → Prop
  | start (store : Store) : Watch start [⟨start, store, .clock, start⟩]
  | again {watch : List Event} {looked : Event} {now later : Instant} {store store' : Store} : Watch start watch →
      Misses key looked → now < start + timeout →
      Watch start (⟨later, store', .sleep (min Service.pollInterval (start + timeout - now)), ()⟩ ::
        ⟨now, store, .clock, now⟩ :: looked :: watch)

/-- A request has watched the key for the whole of `timeout` and not seen a value. -/
def WaitedInVain (log : List Event) : Prop :=
  ∃ (start now : Instant) (store : Store) (looked : Event) (watch : List Event), Watch key timeout start watch ∧
    Misses key looked ∧ start + timeout ≤ now ∧ (⟨now, store, .clock, now⟩ :: looked :: watch) <:+: log

/-- Why a request computes the response for its key. -/
inductive Cause (log : List Event) : Prop
  | locked (token : Token) : Heard (.operate (.acquire key (v.timeout settings))) (.ok (some token)) log →
      Heard (.hold ⟨key, token⟩) () log → Cause log
  | waited : v.policy settings = .wait → Faith.LockHeld key (v.timeout settings) log →
      WaitedInVain key (v.timeout settings) log → Cause log
  | bypassed : v.policy settings = .bypass → Faith.LockHeld key (v.timeout settings) log → Cause log
  | lookupFailed (reason : CacheError) : Heard (.operate (.get key)) (.error reason) log → Cause log
  | acquireFailed (reason : CacheError) : Heard (.operate (.acquire key (v.timeout settings))) (.error reason) log →
      Cause log

/-- A handler has answered. -/
def Ran (log : List Event) : Prop := ∃ endpoint request response, Heard (.handle endpoint request) response log

/-- The entry stands for the response of a handler that was run, and lives as long as its route says. -/
def Origin (e : Entry) (log : List Event) : Prop :=
  ∃ (endpoint : Nat) (request : Request) (response : Response) (bytes : ByteArray) (read : Instant),
    v.endpoint = some endpoint ∧ Heard (.handle endpoint request) response log ∧ response.isSuccess = true ∧
      response.body.collect = .ok bytes ∧ e.unpack = .ok (Middleware.stored response bytes) ∧ e.tags = v.rule.tags ∧
      (∃ store, (⟨read, store, .clock, read⟩ : Event) ∈ log) ∧
      e.deadline = read + min (v.rule.ttl.getD settings.defaultTtl) Service.maxTtl

variable {settings v key timeout} {log log' : List Event}

theorem Ran.mono (sub : log ⊆ log') : Ran log → Ran log'
  | ⟨endpoint, request, response, heard⟩ => ⟨endpoint, request, response, heard.mono sub⟩

theorem WaitedInVain.mono (suffix : log <:+ log') : WaitedInVain key timeout log → WaitedInVain key timeout log'
  | ⟨start, now, store, looked, watch, watched, misses, late, part⟩ =>
    ⟨start, now, store, looked, watch, watched, misses, late, part.trans suffix.isInfix⟩

theorem Cause.mono (suffix : log <:+ log') (cause : Cause settings v key log) : Cause settings v key log' := by
  cases cause with
  | locked token acquired took => exact .locked token (acquired.mono suffix.subset) (took.mono suffix.subset)
  | waited policy held vain => exact .waited policy (Faith.LockHeld.mono suffix.subset held) (vain.mono suffix)
  | bypassed policy held => exact .bypassed policy (Faith.LockHeld.mono suffix.subset held)
  | lookupFailed reason heard => exact .lookupFailed reason (heard.mono suffix.subset)
  | acquireFailed reason heard => exact .acquireFailed reason (heard.mono suffix.subset)

end Logs

/-! ## The contract -/

section Contract

variable (S : Surroundings) (v : Visit)

/-- What an event tells: entries that are found can be read, locks are refused for live ones, the clock tells the
time, and only what may fail does. -/
structure Grants (e : Event) : Prop where
  found {now : Instant} {store : Store} {key : String} {entry : Entry} :
    e = ⟨now, store, .operate (.get key), .ok (some entry)⟩ → ∃ value, entry.unpack = .ok value
  refused {now : Instant} {store : Store} {key : String} {timeout : Millis} :
    e = ⟨now, store, .operate (.acquire key timeout), .ok none⟩ → store.isLocked now key = true
  told {now told : Instant} {store : Store} : e = ⟨now, store, .clock, told⟩ → told = now
  failed {now : Instant} {store : Store} {op : Operation} {reason : CacheError} :
    e = ⟨now, store, .operate op, .error reason⟩ → S.mayFail op

/-- What a request may do before it is decided whether it computes. -/
def Seeks (log : List Event) : Action → Prop
  | .operate (.get key) => v.key? S.settings = some key
  | .operate (.acquire key timeout) => v.key? S.settings = some key ∧ timeout = v.timeout S.settings
  | .hold g => v.key? S.settings = some g.key ∧
      Heard (.operate (.acquire g.key (v.timeout S.settings))) (.ok (some g.token)) log
  | .clock | .sleep _ | .count _ => True
  | _ => False

/-- What a request may do when it computes. -/
def Computes (log : List Event) : Action → Prop
  | .handle endpoint _ => v.endpoint = some endpoint ∧ ¬ Ran log ∧
      ∀ key, v.key? S.settings = some key → Timely log → Cause S.settings v key log
  | .operate (.set key e) => v.key? S.settings = some key ∧ Origin S.settings v e log
  | .operate (.release key token) => v.key? S.settings = some key ∧ (v.endpoint = none ∨ Ran log) ∧
      Heard (.hold ⟨key, token⟩) () log
  | .disarm _ => v.endpoint = none ∨ Ran log
  | _ => False

/-- What is demanded of a request on all its way, and what it is granted. -/
def contract : Program.Contract := ⟨fun log action => Seeks S v log action ∨ Computes S v log action, Grants S⟩

/-- Every entry of a store can be read. -/
def Readable (s : Store) : Prop := ∀ key e, s.Holds key e → ∃ value, e.unpack = .ok value

/-- Whatever a request writes can be read. -/
theorem unpack_of_demands {log : List Event} {key : String} {e : Entry}
    (demanded : (contract S v).demands log (.operate (.set key e))) : ∃ value, e.unpack = .ok value := by
  obtain seeks | ⟨-, origin⟩ := demanded
  · exact seeks.elim
  · obtain ⟨_, _, _, _, _, -, -, -, -, unpacked, -⟩ := origin
    exact ⟨_, unpacked⟩

theorem upholds (others : ∀ op, S.others op → ∀ key e, op ≠ .set key e) : Upholds S Readable (contract S v) := by
  refine .of_entries others (fun demanded => unpack_of_demands S v demanded)
    fun holds answered => ⟨?_, ?_, ?_, ?_⟩
  · rintro now store key entry ⟨⟩
    exact holds key entry (Store.get_found answered.of_ok.1.symm)
  · rintro now store key timeout ⟨⟩
    exact Store.isLocked_of_acquire answered.of_ok.1.symm
  · rintro now told store ⟨⟩
    cases answered with
    | clock => rfl
  · rintro now store op reason ⟨⟩
    generalize eq : (Except.error reason : Except CacheError op.Result) = reply at answered
    cases answered with
    | operate => cases eq
    | fault _ may => exact may

/-! ## From the procedure -/

variable {S v} {log : List Event} {key : String}

theorem ran_iff : Ran log ↔ runs log ≠ [] := by
  constructor
  · rintro ⟨endpoint, request, response, heard⟩
    exact List.ne_nil_of_mem (Procedure.mem_runs.2 ⟨endpoint, request, heard⟩)
  · intro ran
    obtain ⟨response, mem⟩ := List.exists_mem_of_ne_nil _ ran
    obtain ⟨endpoint, request, heard⟩ := Procedure.mem_runs.1 mem
    exact ⟨endpoint, request, response, heard⟩

/-- A look-up that no value came of. -/
theorem misses_of_looked {now : Instant} {store : Store} {reply : Except CacheError (Option Entry)}
    (granted : Grants S ⟨now, store, .operate (.get key), reply⟩) (missed : ∀ value, looked reply ≠ .ok (some value)) :
    Misses key ⟨now, store, .operate (.get key), reply⟩ := by
  rcases reply with reason | _ | entry
  · exact ⟨_, .failed now store reason, nofun⟩
  · exact ⟨_, .missing now store, nofun⟩
  · obtain ⟨value, unpacked⟩ := granted.found rfl
    exact absurd (by rw [looked, unpacked]; rfl) (missed value)

section Rounds

variable {timeout : Millis} {deadline start : Instant} {n : Nat} {rounds : List Event}

/-- The rounds of a request that waits are a watch, since its clock tells the time. -/
theorem watch_of_rounds (looks : Rounds key (start + timeout) n rounds) (granted : ∀ e ∈ rounds, Grants S e)
    (s : Store) : Watch key timeout start (rounds ++ [⟨start, s, .clock, start⟩]) := by
  induction looks with
  | none => exact .start s
  | more _ missed early ih =>
    simp only [List.forall_mem_cons] at granted
    obtain ⟨-, clock, look, granted⟩ := granted
    obtain rfl := clock.told rfl
    exact .again (ih granted) (misses_of_looked look missed) early

/-- Another round takes its time, or brings the deadline. -/
theorem min_le_after {deadline first before now later n : Nat} (earlier : min deadline (first + 50 * n) ≤ before)
    (le : before ≤ now) (early : now < deadline) (slept : now + min 50 (deadline - now) ≤ later) :
    min deadline (first + 50 * (n + 1)) ≤ later := by omega

theorem lt_of_min_le {deadline first now : Nat} (le : min deadline first ≤ now) (early : now < deadline) :
    first < deadline := by omega

/-- After a round the deadline has come or the time of a round has passed, and so on. -/
theorem latest_of_rounds (looks : Rounds key deadline n rounds) (granted : ∀ e ∈ rounds, Grants S e)
    (timely : Timely (rounds ++ log)) : min deadline (latest log + 50 * n) ≤ latest (rounds ++ log) := by
  induction looks with
  | none => exact Nat.min_le_right ..
  | more _ _ early ih =>
    simp only [List.forall_mem_cons] at granted
    obtain ⟨-, clock, -, granted⟩ := granted
    obtain rfl := clock.told rfl
    obtain ⟨slept, told, looked, timely⟩ := timely
    exact min_le_after (ih granted timely) (Nat.le_trans looked told) early slept

/-- No round begins after the deadline. -/
theorem rounds_lt (looks : Rounds key deadline (n + 1) rounds) (granted : ∀ e ∈ rounds, Grants S e)
    (timely : Timely (rounds ++ log)) : latest log + 50 * n < deadline := by
  cases looks with
  | more looks _ early =>
    simp only [List.forall_mem_cons] at granted
    obtain ⟨-, clock, -, granted⟩ := granted
    obtain rfl := clock.told rfl
    obtain ⟨-, told, looked, timely⟩ := timely
    have le := Nat.le_trans (latest_of_rounds looks granted timely) (Nat.le_trans looked told)
    exact lt_of_min_le le early

/-- So many rounds as a request may take at most are too many. -/
theorem too_many_rounds (start timeout : Nat) : ¬ start + 50 * (timeout / 50 + 1) < start + timeout := by omega

/-- **Who has waited in vain** has done so for the whole time: the looks that it may take are enough for that. -/
theorem waited_of_vain (granted : ∀ e ∈ log, Grants S e) (timely : Timely log) :
    Vain key timeout log → WaitedInVain key timeout log := by
  rintro (⟨looks, missed, late, part⟩ | ⟨looks, part⟩)
  · have granted := fun e mem => granted e (part.subset mem)
    simp only [List.forall_mem_cons, List.forall_mem_append] at granted
    obtain ⟨clock, last, rounds, begins, -⟩ := granted
    obtain rfl := clock.told rfl
    obtain rfl := begins.told rfl
    exact ⟨_, _, _, _, _, watch_of_rounds looks rounds _, misses_of_looked last missed, late, part⟩
  · obtain ⟨later, earlier, rfl⟩ := part
    rw [List.append_assoc, List.append_assoc] at timely
    have granted := fun e mem => granted e (List.mem_append_left _ (List.mem_append_right _ mem))
    simp only [List.forall_mem_append, List.forall_mem_cons] at granted
    obtain ⟨rounds, begins, -⟩ := granted
    obtain rfl := begins.told rfl
    exact absurd (rounds_lt looks rounds timely.tail) (too_many_rounds _ timeout)

end Rounds

theorem exists_of_lookupFailed : ∀ {log : List Event}, lookupFailed log = true → ∃ e ∈ log, lookupFails e = true
  | [e], failed => ⟨e, List.mem_singleton_self e, failed⟩
  | _ :: e :: log, failed => by
    have rest : lookupFailed (e :: log) = true := failed
    obtain ⟨e', mem, fails⟩ := exists_of_lookupFailed rest
    exact ⟨e', .tail _ mem, fails⟩

section Logs

variable (kept : Program.Kept (Procedure.contract S.settings v) log)
include kept

/-- What came of the attempt to lock the key. -/
theorem heard_of_attempts {reply : Except CacheError (Option Token)} (own : v.key? S.settings = some key)
    (tried : Procedure.attempts log = [reply]) : ∃ now store,
    (⟨now, store, .operate (.acquire key (v.timeout S.settings)), reply⟩ : Event) ∈ log := by
  obtain ⟨key', own', heard⟩ := Procedure.tried_spec kept (tried ▸ List.mem_singleton_self reply)
  cases own.symm.trans own'
  exact heard

variable (granted : ∀ e ∈ log, Grants S e)
include granted

theorem heard_of_lookupFailed (failed : lookupFailed log = true) : ∃ key reason, v.key? S.settings = some key ∧
    Heard (.operate (.get key)) (.error reason) log := by
  obtain ⟨⟨now, store, action, reply⟩, mem, fails⟩ := exists_of_lookupFailed failed
  unfold lookupFails at fails
  split at fails
  · next eq =>
    cases eq
    obtain ⟨_, _, -, ⟨-, own⟩, -⟩ := kept.of_mem mem
    exact ⟨_, _, own, now, store, mem⟩
  · next eq =>
    cases eq
    obtain ⟨value, unpacked⟩ := (granted _ mem).found rfl
    rw [unpacked] at fails
    cases fails
  · cases fails

theorem lockHeld_of_attempts (own : v.key? S.settings = some key) (tried : Procedure.attempts log = [.ok none]) :
    Faith.LockHeld key (v.timeout S.settings) log := by
  obtain ⟨now, store, mem⟩ := heard_of_attempts kept own tried
  exact ⟨now, store, mem, (granted _ mem).refused rfl⟩

/-- **A request that is about to compute** has a cause. -/
theorem cause_of_undertaken {c : Computation} (undertaken : Undertaken S.settings v c log)
    (own : v.key? S.settings = some key) (timely : Timely log) : Cause S.settings v key log := by
  obtain ⟨_, _, _, way, stands, vain⟩ := undertaken
  cases way with
  | keyless none => cases own.symm.trans none
  | unseen =>
    obtain ⟨key', reason, own', heard⟩ := heard_of_lookupFailed kept granted stands.lookup
    cases own.symm.trans own'
    exact .lookupFailed reason heard
  | unlocked reason => exact .acquireFailed reason (heard_of_attempts kept own stands.attempts)
  | locked g own' =>
    cases own.symm.trans own'
    have took : g ∈ heldBy log := stands.held ▸ List.mem_singleton_self g
    exact .locked g.token (heard_of_attempts kept own stands.attempts) (Program.heard_of_mem_heldBy took)
  | overdue policy =>
    exact .waited policy (lockHeld_of_attempts kept granted own stands.attempts)
      (waited_of_vain granted timely (vain rfl key own))
  | bypassed policy => exact .bypassed policy (lockHeld_of_attempts kept granted own stands.attempts)

/-- What is demanded of requests by their procedure is as demanded here. -/
theorem demands_of_procedure {action : Action} (demanded : Procedure.Demands S.settings v log action) :
    Seeks S v log action ∨ Computes S v log action := by
  cases action with
  | operate op =>
    cases op with
    | get key => exact .inl demanded.2
    | acquire key timeout => exact .inl ⟨demanded.1, demanded.2.1⟩
    | set key e =>
      obtain ⟨own, -, -, r, bytes, read, ⟨now, store, rest, rfl⟩, ran, ⟨success, arrives, -⟩, rfl⟩ := demanded
      obtain ⟨endpoint, request, has, -, heard⟩ := Procedure.handled_spec kept (ran ▸ List.mem_singleton_self r)
      obtain rfl := (granted _ List.mem_cons_self).told rfl
      exact .inr ⟨own, endpoint, request, r, bytes, _, has, heard, success, arrives, unpack_pack .., rfl,
        ⟨store, List.mem_cons_self⟩, rfl⟩
    | release key token =>
      obtain ⟨_, _, rest, rfl⟩ := Procedure.disarmed_of_due (g := ⟨key, token⟩) demanded
      obtain ⟨⟨-, held, ran, -⟩, -, kept⟩ := kept
      have took := Program.heard_of_mem_heldBy (held ▸ List.mem_singleton_self (⟨key, token⟩ : Guard))
      obtain ⟨_, _, locked⟩ := Procedure.acquired_of_hold kept took
      obtain ⟨_, _, -, ⟨own, -⟩, -⟩ := kept.of_mem locked
      exact .inr ⟨own, ran.imp_right fun ran => (ran_iff.2 ran).mono (List.subset_cons_self ..),
        took.mono (List.subset_cons_self ..)⟩
    | _ => exact demanded.elim
  | hold g =>
    obtain ⟨_, _, timeout, rest, rfl⟩ := Procedure.given_of_due demanded
    obtain ⟨own, rfl, -⟩ := kept.1
    exact .inl ⟨own, _, _, List.mem_cons_self⟩
  | disarm g => exact .inr (demanded.2.2.1.imp_right ran_iff.2)
  | handle endpoint request =>
    obtain ⟨-, has, idle, -, c, undertaken⟩ := demanded
    exact .inr ⟨has, fun ran => ran_iff.1 ran idle, fun key => cause_of_undertaken kept granted undertaken⟩
  | count | clock | sleep => exact .inl trivial
  | _ => exact demanded.elim

end Logs

/-! ## Serving -/

/-- The response is marked as one that was stored. -/
def Replayed (r : Response) : Prop := r.Marked .hit ∨ r.Marked .wait

theorem not_replayed_mark {m : Mark} {r : Response} (mark : m = .miss ∨ m = .bypass) :
    ¬ Replayed (Middleware.mark m r) := by
  rintro (marked | marked) <;> cases Response.marked_mark.1 marked <;> simp at mark

/-- What a response promises that is marked as replayed: a look-up of its key found what it shows. -/
def Promise (S : Surroundings) (v : Visit) (log : List Event) (r : Response) : Prop :=
  Replayed r → ∃ key value m, v.key? S.settings = some key ∧ Found key value log ∧ r = Middleware.replay m value

/-- **A request that is done** is as promised. -/
theorem promise_of_finished {r : Response} (finished : Finished S.settings v log r) : Promise S v log r := by
  intro replayed
  cases finished with
  | unread _ _ eq =>
    rw [eq] at replayed
    rcases replayed with marked | marked <;> cases marked
  | replayed _ own found _ _ eq => exact ⟨_, _, _, own, found, eq⟩
  | refused _ _ _ eq =>
    rw [eq] at replayed
    exact (replayed.elim (not_marked_lockContended _ _) (not_marked_lockContended _ _)).elim
  | answered _ way _ _ _ _ eq =>
    refine absurd (eq ▸ replayed) (not_replayed_mark ?_)
    rw [Procedure.markOf, way.mark]
    split
    · exact .inr rfl
    · split
      · exact .inl rfl
      · exact .inr rfl

/-- **Serving a request** keeps to the contract of its visit. -/
theorem serve_meets (S : Surroundings) (v : Visit) : (v.serve S.settings).Meets (contract S v) (Promise S v) [] :=
  .derive (fun _ => trivial) (fun _ _ kept granted demanded => demands_of_procedure kept granted demanded)
    (fun _ _ _ _ finished => promise_of_finished finished) trivial nofun (Procedure.serve_meets S.settings v)

end Contract

end Conduct

open Conduct in
/-- **Every request** of a pool keeps to the contract of its visit, if nobody else writes entries. -/
theorem Reach.conduct {S : Surroundings} (others : ∀ op, S.others op → ∀ key e, op ≠ .set key e) {capacity : Nat}
    {store : Store} (create : Store.create capacity = .ok store) {p : Pool} (reach : Reach S store p) :
    ∀ t ∈ p.tasks, t.Conforms S (contract S t.visit) (Promise S) :=
  (reach.conforms (fun v => upholds S v others) (fun v _ => serve_meets S v)
    fun _ _ here => absurd here (Store.not_holds_create create)).2

end ResponseCache
