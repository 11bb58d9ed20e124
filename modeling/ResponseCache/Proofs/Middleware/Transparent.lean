import ResponseCache.Proofs.Middleware.Faith
import ResponseCache.Proofs.Middleware.Serving

/-!
# The cache cannot be told from the handlers behind it

If what the handlers answer depends on the key of a request alone, then so does what the store holds: only the
middleware writes entries, and it writes what a handler answered under the key of the request. So whatever a look-up
finds may be sent instead of running the handler, and every way through the middleware ends with the answer of the
handler, apart from a refusal (`transparent`). Nothing is assumed about the store but that an operation either takes
place or fails without an effect.
-/

namespace ResponseCache

open Http
open Procedure (attempts runs Finished)

/-- A response shows a stored one: the same status, content type and body. -/
structure Http.Response.Shows (r : Response) (value : StoredResponse) : Prop where
  status : r.status = value.status
  contentType : r.headers.get? "content-type" = value.contentType.map Text.encode
  body : r.body.collect = .ok value.body

/-- The responses that a request may get without a cache, in whatever pieces its body comes. -/
def Visit.Answer (S : Surroundings) (v : Visit) (r : Response) : Prop :=
  match v.endpoint with
  | some endpoint => ∃ request : Request, request.whole = v.request.whole ∧ S.answers endpoint request r
  | none => r = .bare 405

/-- A content type, if there is one, that is a visible text. -/
def StoredResponse.Visible (value : StoredResponse) : Prop :=
  ∀ text, value.contentType = some text → isVisible (Text.encode text) = true

/-- What handlers answer is decided by the key of a request, if it has one. -/
structure Decided (S : Surroundings) (direct : Visit → StoredResponse) (answer : String → StoredResponse) : Prop where
  shows : ∀ v, S.comes v → ∀ r, v.Answer S r → r.Shows (direct v)
  visible : ∀ v, S.comes v → (direct v).Visible
  byKey : ∀ v, S.comes v → ∀ key, v.key? S.settings = some key → direct v = answer key

namespace Faith

/-! ## Responses -/

section Contract

variable {S : Surroundings} {answer : String → StoredResponse} {log : List Program.Event}
variable {key : String} {value : StoredResponse} {r out : Response}

theorem mark_shows (m : Mark) (shown : r.Shows value) : (Middleware.mark m r).Shows value where
  status := shown.status
  contentType := (Headers.get?_insert_of_ne _ _ (by decide)).trans shown.contentType
  body := shown.body

/-- **A replayed response** shows what was stored. -/
theorem replay_shows (m : Mark) (good : Good answer key value) (visible : value.Visible) :
    (Middleware.replay m value).Shows value := by
  obtain ⟨-, low, high⟩ := good
  refine mark_shows m ⟨?_, ?_, Body.collect_ofBytes value.body⟩
  · have : 100 ≤ value.status ∧ value.status ≤ 999 :=
      ⟨UInt16.le_trans (by decide) low, UInt16.le_trans (UInt16.le_of_lt high) (by decide)⟩
    exact if_pos this
  · cases type : value.contentType with
    | none => rfl
    | some text =>
      simp only [Option.bind_some, legalValue?_of_visible (visible text type), Option.map_some]
      exact Headers.get?_insert_empty _

/-- What is stored of a response is what it shows. -/
theorem stored_eq (shown : r.Shows value) (visible : value.Visible) : Middleware.stored r value.body = value := by
  obtain ⟨status, contentType, body⟩ := value
  have type : (r.headers.get? "content-type").bind visibleText? = contentType := by
    rw [shown.contentType]
    cases contentType with
    | none => rfl
    | some text => exact visibleText?_encode (visible text rfl)
  rw [Middleware.stored, shown.status, type]

/-- What is handed on of a response shows the same. -/
theorem handed_shows (shown : r.Shows value) (handed : Procedure.Handed r out) : out.Shows value := by
  have on := handed.whole (Body.collect_eq_ok shown.body).1
  exact ⟨on.status.trans shown.status, (on.get?_eq (by decide)).trans shown.contentType, on.body.trans shown.body⟩

/-! ## Serving -/

variable {direct : Visit → StoredResponse} {v : Visit}

/-- What a request is promised: the answer that it would get without the cache, or a refusal while its key is locked, if
that is its policy. -/
def Promise (S : Surroundings) (direct : Visit → StoredResponse) (v : Visit) (log : List Program.Event) (r : Response) :
    Prop :=
  r.Shows (direct v) ∨ ∃ key, v.key? S.settings = some key ∧ v.policy S.settings = .fail ∧
    r = (CacheError.lockContended (Service.retryAfter (v.timeout S.settings))).response ∧
    LockHeld key (v.timeout S.settings) log

section Logs

variable (kept : Program.Kept (Procedure.contract S.settings v) log) (granted : ∀ e ∈ log, Grants S answer e)
include kept granted

/-- Behind the cache a request is answered as it would be without one. -/
theorem answer_of_runs (readable : v.Readable) (ran : r ∈ runs log) : v.Answer S r := by
  obtain ⟨endpoint, request, has, ⟨facts, captured⟩, now, store, mem⟩ := Procedure.handled_spec kept ran
  obtain ⟨_, _, captured', whole⟩ := Procedure.capture_whole readable
  cases captured.symm.trans captured'
  rw [Visit.Answer, has]
  exact ⟨request, whole, (granted _ mem).handled rfl⟩

/-- A request that found its key locked found a live lock. -/
theorem lockHeld_of_attempts (tried : .ok none ∈ attempts log) : ∃ key, v.key? S.settings = some key ∧
    LockHeld key (v.timeout S.settings) log := by
  obtain ⟨key, own, now, store, mem⟩ := Procedure.tried_spec kept tried
  exact ⟨key, own, now, store, mem, (granted _ mem).refused rfl⟩

/-- **A request that is done** is as promised. -/
theorem promise_of_finished (decided : Decided S direct answer) (comes : S.comes v) (readable : v.Readable)
    (finished : Finished S.settings v log out) : Promise S direct v log out := by
  cases finished with
  | unread unread => exact nomatch unread.symm.trans (Procedure.readable_iff.2 readable)
  | replayed _ own found _ _ eq =>
    obtain ⟨entry, ⟨now, store, mem⟩, unpacked⟩ := found
    obtain ⟨value, unpacked', good⟩ := (granted _ mem).found rfl
    cases unpacked.symm.trans unpacked'
    have same := (decided.byKey v comes _ own).trans good.1.symm
    rw [eq, Promise, same]
    exact .inl (replay_shows _ good (same ▸ decided.visible v comes))
  | refused _ policy stands eq =>
    obtain ⟨key, own, held⟩ := lockHeld_of_attempts kept granted (stands.attempts ▸ List.mem_singleton_self _)
    exact .inr ⟨key, own, policy, eq, held⟩
  | @answered _ _ _ _ r _ _ _ _ _ answers _ stands handed eq =>
    have answer : v.Answer S r := by
      rcases answers with rfl | ⟨-, none, rfl⟩
      · exact answer_of_runs kept granted readable (stands.runs ▸ List.mem_singleton_self r)
      · rw [Visit.Answer, none]
    rw [eq]
    exact .inl (mark_shows _ (handed_shows (decided.shows v comes r answer) handed))

/-- **A request that writes** stores the answer of its key. -/
theorem demands_of_procedure (decided : Decided S direct answer) (comes : S.comes v) (readable : v.Readable)
    {action : Action} (demanded : Procedure.Demands S.settings v log action) :
    (contract S answer).demands log action := by
  rintro key e rfl
  obtain ⟨own, -, -, r, bytes, read, -, ran, ⟨success, arrives, -⟩, rfl⟩ := demanded
  have shown := decided.shows v comes r (answer_of_runs kept granted readable (ran ▸ List.mem_singleton_self r))
  cases arrives.symm.trans shown.body
  refine ⟨direct v, (unpack_pack ..).trans (congrArg _ (stored_eq shown (decided.visible v comes))), ?_⟩
  rw [Response.isSuccess, Bool.and_eq_true, decide_eq_true_eq, decide_eq_true_eq, shown.status] at success
  exact ⟨decided.byKey v comes key own, success⟩

end Logs

/-- **Every way through the middleware** keeps the promise. -/
theorem serve_meets (decided : Decided S direct answer) (comes : S.comes v) (readable : v.Readable) :
    (v.serve S.settings).Meets (contract S answer) (Promise S direct v) [] :=
  .derive (fun _ => trivial) (fun _ _ kept granted => demands_of_procedure kept granted decided comes readable)
    (fun _ _ kept granted => promise_of_finished kept granted decided comes readable) trivial nofun
    (Procedure.serve_meets S.settings v)

end Contract

end Faith

open Faith in
/-- **The cache is transparent.** Let requests come and go in any way over a store that is empty at first and may fail
any operation, with others operating on it too, but not writing entries. If handlers answer by the key of a request,
every response shows what the request would have been answered without the cache, except for refusals: they are given
under the policy `fail` alone, and only after a live lock of the key was found held. -/
theorem transparent {S : Surroundings} {direct : Visit → StoredResponse} {answer : String → StoredResponse}
    (decided : Decided S direct answer) (readable : ∀ v, S.comes v → v.Readable)
    (others : ∀ op, S.others op → ∀ key e, op ≠ .set key e) {capacity : Nat} {store : Store}
    (create : Store.create capacity = .ok store) {p : Pool} (reach : Reach S store p) :
    ∀ t ∈ p.tasks, ∀ r, t.next = some (.done r) →
      r.Shows (direct t.visit) ∨ ∃ key, t.visit.key? S.settings = some key ∧ t.visit.policy S.settings = .fail ∧
        r = (CacheError.lockContended (Service.retryAfter (t.visit.timeout S.settings))).response ∧
        LockHeld key (t.visit.timeout S.settings) t.log := by
  have start : AllFaithful answer store := fun key e here => absurd here (Store.not_holds_create create)
  have serve : ∀ v, S.comes v → (v.serve S.settings).Meets (contract S answer) (Promise S direct v) [] :=
    fun v comes => serve_meets decided comes (readable v comes)
  obtain ⟨-, meets⟩ := reach.meets (upholds S answer others) serve start
  intro t mem r next
  exact meets t mem _ next

/-- While one request computes, another is refused, and a third, whose look-up fails, is answered by the handler. -/
theorem transparent_contended : ∃ (S : Surroundings) (value : StoredResponse) (store : Store) (p : Pool),
    Reach S store p ∧
    (∃ t ∈ p.tasks, ∃ r, t.next = some (.done r) ∧ r.status = 503 ∧ Faith.LockHeld "k" 5000 t.log) ∧
    ∃ t ∈ p.tasks, ∃ r, t.next = some (.done r) ∧ r.Shows value := by
  let value : StoredResponse := ⟨200, some "text/plain", Text.encode "hello"⟩
  let answer : Response := .ofText 200 "text/plain" "hello"
  let v : Visit := ⟨{ key := { override := some (.literal "k") }, contention := some .fail }, "/", [], some 0,
    ⟨"GET", { path := "/" }, .empty, .empty⟩⟩
  let S : Surroundings :=
    { settings := { enableStats := false }
      comes := (· = v)
      answers := fun _ _ r => r = answer
      others := fun _ => False
      mayFail := fun _ => True
      mayDrop := fun _ => False }
  -- the stores along the run
  let store (misses : UInt64) (locks : Std.TreeMap String Lock) (token : Token) : Store :=
    ⟨⟨∅, ∅, 0, 1, { misses := misses }, by decide⟩, ∅, locks, token⟩
  let locks : Std.TreeMap String Lock := (∅ : Std.TreeMap String Lock).insert "k" ⟨1, 0, 5000⟩
  have missed (n : UInt64) (locks : Std.TreeMap String Lock) (token : Token) : Answered S 0 0 (store n locks token) {}
      (.operate (.get "k")) (.ok none) (store (n + 1) locks token) {} := .operate _
  have locked : Answered S 0 0 (store 1 ∅ 0) {} (.operate (.acquire "k" 5000)) (.ok (some 1)) (store 1 locks 1) {} :=
    .operate (.acquire "k" 5000)
  have contended : Answered S 0 0 (store 2 locks 1) {} (.operate (.acquire "k" 5000)) (.ok none) (store 2 locks 1) {} :=
    .operate (.acquire "k" 5000)
  have handled : S.answers 0 v.request answer := rfl
  have arrive : ∀ {p : Pool}, Reach S (store 0 ∅ 0) p → Reach S (store 0 ∅ 0) _ :=
    fun {p} reach => reach.tail (.arrive p (v := v) rfl)
  have computing := (arrive .refl).tail (.turn (i := 0) rfl rfl (missed 0 ∅ 0))
    |>.tail (.turn (i := 0) rfl rfl locked)
  have refused := (arrive computing).tail (.turn (i := 1) rfl rfl (missed 1 locks 1))
    |>.tail (.turn (i := 1) rfl rfl contended)
  have reach := (arrive refused).tail (.turn (i := 2) rfl rfl (.fault (.backend "down") trivial))
    |>.tail (.turn (i := 2) rfl rfl (.handle handled))
  have shown : answer.Shows value := ⟨rfl, Headers.get?_insert_empty _, Body.collect_ofBytes _⟩
  have decided : Decided S (fun _ => value) (fun _ => value) := by
    refine ⟨fun v comes r answers => ?_, fun _ _ text eq => ?_, fun _ _ _ _ => rfl⟩
    · cases comes
      obtain ⟨-, -, rfl⟩ := answers
      exact shown
    · cases eq
      decide +kernel
  have readable : ∀ v, S.comes v → v.Readable := by
    rintro v rfl needs
    cases needs
  have all := transparent decided readable (fun _ no => no.elim)
    (show Store.create 1 = .ok (store 0 ∅ 0) from rfl) reach
  refine ⟨S, value, store 0 ∅ 0, _, reach, ⟨_, List.mem_of_getElem? (i := 1) rfl, _, rfl, rfl, ?_⟩, _,
    List.mem_of_getElem? (i := 2) rfl, _, rfl, ?_⟩
  · rcases all _ (List.mem_of_getElem? (i := 1) rfl) _ rfl with shown | ⟨key, key_eq, -, -, held⟩
    · exact absurd shown.status (by decide)
    · cases key_eq
      exact held
  · rcases all _ (List.mem_of_getElem? (i := 2) rfl) _ rfl with shown | ⟨-, -, -, eq, -⟩
    · exact shown
    · exact absurd (congrArg Response.status eq) (by decide)

end ResponseCache
