import Mathlib.Algebra.BigOperators.Group.List.Basic
import ResponseCache.Proofs.Middleware.Accounting
import ResponseCache.Proofs.Words

/-!
# What the tally tells

The tally of a pool is the sum of what its requests have counted, however their actions interleaved (`Reach.number`).
Where all of them are done, what each has counted balances with its response, so the tally tells how many responses
there were of each kind, but for those that were computed to be stored and could not be (`outcomes_accounted`).
-/

namespace ResponseCache

open Http
open Accounting (Balanced)
open Procedure (contract facts outcomes readable runs)

/-- How often an outcome was counted, as a word. -/
def Tally.number (t : Tally) : Outcome → UInt64
  | .hit => t.hits
  | .miss => t.misses
  | .wait => t.waits
  | .bypass => t.bypasses
  | .rejection => t.rejections
  | .backendError => t.backendErrors

theorem Tally.number_count (t : Tally) (o o' : Outcome) :
    (t.count o).number o' = t.number o' + if o = o' then 1 else 0 := by
  cases o <;> cases o' <;> simp [Tally.number, Tally.count]

theorem Tally.eq_of_number {t t' : Tally} (same : ∀ o, t.number o = t'.number o) : t = t' := by
  obtain ⟨hits, misses, waits, bypasses, rejections, failures⟩ := t
  obtain ⟨hits', misses', waits', bypasses', rejections', failures'⟩ := t'
  obtain rfl : hits = hits' := same .hit
  obtain rfl : misses = misses' := same .miss
  obtain rfl : waits = waits' := same .wait
  obtain rfl : bypasses = bypasses' := same .bypass
  obtain rfl : rejections = rejections' := same .rejection
  obtain rfl : failures = failures' := same .backendError
  rfl

/-- A sum after one of its terms has changed. -/
theorem sum_map_set {α : Type} (f : α → Nat) {a b : α} : ∀ {l : List α} {i : Nat}, l[i]? = some a →
    ((l.set i b).map f).sum + f a = (l.map f).sum + f b
  | [], _, here => nomatch here
  | x :: l, 0, here => by
    cases Option.some.inj here
    simp only [List.set_cons_zero, List.map_cons, List.sum_cons]
    omega
  | x :: l, i + 1, here => by
    have ih := sum_map_set (b := b) f (l := l) (i := i) here
    simp only [List.set_cons_succ, List.map_cons, List.sum_cons]
    omega

/-- How often requests have counted an outcome. -/
def Pool.counted (p : Pool) (o : Outcome) : Nat := (p.tasks.map fun t => (outcomes t.log).count o).sum

theorem Pool.counted_of_set {p q : Pool} {i : Nat} {t u : Task} {o : Outcome} {n : Nat} (here : p.tasks[i]? = some t)
    (set : q.tasks = p.tasks.set i u) (more : (outcomes u.log).count o = (outcomes t.log).count o + n) :
    q.counted o = p.counted o + n := by
  have sum := sum_map_set (b := u) (fun t => (outcomes t.log).count o) here
  rw [Pool.counted, set, Pool.counted]
  omega

section Pools

variable {S : Surroundings} {store : Store} {p : Pool}

/-- **Every request** of a pool that is done balances. -/
theorem Reach.balanced (reach : Reach S store p) {t : Task} (mem : t ∈ p.tasks) {r : Response}
    (next : t.next = some (.done r)) : Balanced S.settings t.visit (facts t.log) r :=
  ((Procedure.conforms reach t mem).meets _ next).balanced

/-- An answer adds to the tally what it adds to the log. -/
theorem Procedure.number_answered {now since : Instant} {tally tally' : Tally} {store' : Store} {action : Action}
    {reply : action.Reply} (answered : Answered S now since store tally action reply store' tally')
    (kept : action ≠ .clearTally) (log : List Program.Event) (o : Outcome) : ∃ n,
      (outcomes (⟨now, store, action, reply⟩ :: log)).count o = (outcomes log).count o + n ∧
        tally'.number o = tally.number o + UInt64.ofNat n := by
  cases answered with
  | count outcome =>
    refine ⟨if outcome = o then 1 else 0, ?_, ?_⟩
    · show (outcome :: outcomes log).count o = _
      rw [List.count_cons]
      simp only [beq_iff_eq]
    · rw [Tally.number_count]
      split <;> rfl
  | clearTally => exact (kept rfl).elim
  | _ => exact ⟨0, rfl, (UInt64.add_zero _).symm⟩

/-- **The tally** is the sum of what the requests have counted. -/
theorem Reach.number (reach : Reach S store p) (o : Outcome) : p.tally.number o = UInt64.ofNat (p.counted o) := by
  induction reach with
  | refl => cases o <;> rfl
  | @tail p q before step ih =>
    cases step with
    | pass | settle | other => exact ih
    | arrive =>
      rw [ih, Pool.counted, Pool.counted, List.map_append, List.sum_append]
      rfl
    | @turn i t action resume reply store' tally' here next answered =>
      obtain ⟨demanded, -⟩ := (Procedure.conforms before t (List.mem_of_getElem? here)).meets _ next
      have kept : action ≠ .clearTally := by
        rintro rfl
        exact demanded
      obtain ⟨n, more, number⟩ := Procedure.number_answered answered kept t.log o
      rw [Pool.counted_of_set here rfl more, UInt64.ofNat_add, ← ih]
      exact number
    | drop here => exact ih.trans (congrArg _ (Pool.counted_of_set (n := 0) here rfl (by rfl)).symm)
    | retire here => exact ih.trans (congrArg _ (Pool.counted_of_set (n := 0) here rfl (by rfl)).symm)

/-! ## Requests that are done -/

/-- The response of a request that is done. -/
def Task.response? (t : Task) : Option Response :=
  match t.next with
  | some (.done r) => some r
  | _ => none

namespace Pool

/-- How many responses are marked so. -/
def marked (p : Pool) (m : Mark) : Nat := p.tasks.countP fun t => t.response?.any fun r => r.Marked m

/-- How many requests were refused while their key was being computed. -/
def refused (p : Pool) : Nat := p.tasks.countP fun t => t.response?.any (·.refuses)

/-- How many computations that store gave a success and could not store it. -/
def unstored (p : Pool) (settings : Settings) : Nat :=
  p.tasks.countP fun t => (facts t.log).unstored (t.visit.policy settings)

/-- How many requests began with a look-up that failed, or could not lock their key for a failure. -/
def undecided (p : Pool) : Nat := p.tasks.countP fun t => (facts t.log).undecided

/-- How many requests failed to store their response. -/
def setFailed (p : Pool) : Nat := p.tasks.countP fun t => (facts t.log).setFailed

end Pool

theorem countP_eq_sum {α : Type} (b : α → Bool) (l : List α) : l.countP b = (l.map fun a => (b a).toNat).sum := by
  induction l with
  | nil => rfl
  | cons a l ih =>
    rw [List.countP_cons, ih, List.map_cons, List.sum_cons, Nat.add_comm]
    cases b a <;> rfl

/-- With the statistics off nothing is counted. -/
theorem Procedure.outcomes_of_kept {settings : Settings} {v : Visit} (off : settings.enableStats = false) :
    ∀ {log : List Program.Event}, Program.Kept (contract settings v) log → outcomes log = []
  | [], _ => rfl
  | ⟨_, _, action, _⟩ :: log, ⟨demanded, _, kept⟩ => by
    have rest := outcomes_of_kept off kept
    cases action with
    | count outcome => cases off.symm.trans demanded.2
    | _ => exact rest

/-- Requests that are all done have counted what their responses show. -/
structure Pool.Settled (p : Pool) (settings : Settings) : Prop where
  hits : p.counted .hit = p.marked .hit
  waits : p.counted .wait = p.marked .wait
  rejections : p.counted .rejection = p.refused
  misses : p.counted .miss = p.marked .miss + p.unstored settings
  bypasses : p.counted .bypass + p.unstored settings = p.marked .bypass
  failures : p.counted .backendError = p.undecided + p.setFailed

section Done

variable (reach : Reach S store p) (done : ∀ t ∈ p.tasks, ∃ r, t.next = some (.done r))
include reach done

/-- Sums over requests that are done agree if they do for every request that balances. -/
theorem Reach.sum_congr {f g : Task → Nat} (all : ∀ (t : Task) (r : Response), t.response? = some r →
      Balanced S.settings t.visit (facts t.log) r → t ∈ p.tasks → f t = g t) :
    (p.tasks.map f).sum = (p.tasks.map g).sum := by
  refine congrArg List.sum (List.map_congr_left fun t mem => ?_)
  obtain ⟨r, next⟩ := done t mem
  exact all t r (by rw [Task.response?, next]) (reach.balanced mem next) mem

theorem Reach.settled (on : S.settings.enableStats = true) : p.Settled S.settings := by
  constructor
  · rw [Pool.counted, Pool.marked, countP_eq_sum]
    exact reach.sum_congr done fun t r response balanced _ => by rw [response]; exact (balanced.counts on).hits
  · rw [Pool.counted, Pool.marked, countP_eq_sum]
    exact reach.sum_congr done fun t r response balanced _ => by rw [response]; exact (balanced.counts on).waits
  · rw [Pool.counted, Pool.refused, countP_eq_sum]
    exact reach.sum_congr done fun t r response balanced _ => by rw [response]; exact (balanced.counts on).rejections
  · rw [Pool.counted, Pool.marked, Pool.unstored, countP_eq_sum, countP_eq_sum, ← List.sum_map_add]
    exact reach.sum_congr done fun t r response balanced _ => by rw [response]; exact (balanced.counts on).misses
  · rw [Pool.counted, Pool.marked, Pool.unstored, countP_eq_sum, countP_eq_sum, ← List.sum_map_add]
    exact reach.sum_congr done fun t r response balanced _ => by rw [response]; exact (balanced.counts on).bypasses
  · rw [Pool.counted, Pool.undecided, Pool.setFailed, countP_eq_sum, countP_eq_sum, ← List.sum_map_add]
    exact reach.sum_congr done fun t r response balanced _ => (balanced.counts on).failures

/-- **One response of five kinds** for every request whose body could be read. -/
theorem Reach.responses (read : ∀ t ∈ p.tasks, readable t.visit = true) :
    p.marked .hit + p.marked .wait + p.refused + p.marked .miss + p.marked .bypass = p.tasks.length := by
  have one : p.tasks.length = (p.tasks.map fun _ => Bool.toNat true).sum := by rw [← countP_eq_sum, List.countP_true]
  rw [one, Pool.marked, Pool.marked, Pool.marked, Pool.marked, Pool.refused, countP_eq_sum, countP_eq_sum,
    countP_eq_sum, countP_eq_sum, countP_eq_sum, ← List.sum_map_add, ← List.sum_map_add, ← List.sum_map_add,
    ← List.sum_map_add]
  refine reach.sum_congr done fun t r response balanced mem => ?_
  rw [response]
  exact balanced.one.trans (congrArg _ (read t mem))

end Done

/-- **The tally accounts for the responses.** With the statistics off it stays at zero. With them on, when all
requests are done, however their actions interleaved and whatever failed: hits, waits and rejections are the responses
marked so and the refusals; misses are the responses marked so and the successes that could not be stored, which
bypasses lack; and failures are the requests whose first look-up or attempt to lock failed and those whose write did.
So the counters sum to the number of requests, if all bodies could be read. The handler of a request runs once for a
computation, and not at all otherwise. -/
theorem outcomes_accounted (reach : Reach S store p) :
    (S.settings.enableStats = false → p.tally = {}) ∧
    (∀ t ∈ p.tasks, ∀ r, t.next = some (.done r) →
      (r.Marked .miss ∨ r.Marked .bypass → t.visit.endpoint.isSome → (runs t.log).length = 1) ∧
      (r.Marked .hit ∨ r.Marked .wait ∨ r.refuses = true → runs t.log = [])) ∧
    (S.settings.enableStats = true → (∀ t ∈ p.tasks, ∃ r, t.next = some (.done r)) →
      p.tally.hits = .ofNat (p.marked .hit) ∧ p.tally.waits = .ofNat (p.marked .wait) ∧
      p.tally.rejections = .ofNat p.refused ∧
      p.tally.misses = .ofNat (p.marked .miss + p.unstored S.settings) ∧
      p.unstored S.settings ≤ p.marked .bypass ∧
      p.tally.bypasses = .ofNat (p.marked .bypass - p.unstored S.settings) ∧
      p.tally.backendErrors = .ofNat (p.undecided + p.setFailed) ∧
      ((∀ t ∈ p.tasks, readable t.visit = true) → p.tally.hits + p.tally.misses + p.tally.waits + p.tally.bypasses +
        p.tally.rejections = .ofNat p.tasks.length)) := by
  refine ⟨fun off => ?_, fun t mem r next => ?_, fun on done => ?_⟩
  · refine Tally.eq_of_number fun o => ?_
    have idle : p.counted o = 0 := by
      refine List.sum_eq_zero fun n mem => ?_
      obtain ⟨t, here, rfl⟩ := List.mem_map.1 mem
      rw [Procedure.outcomes_of_kept off (Procedure.conforms reach t here).kept]
      rfl
    rw [reach.number, idle]
    cases o <;> rfl
  · have balanced : Balanced S.settings t.visit (facts t.log) r := reach.balanced mem next
    exact ⟨balanced.ran, balanced.idle⟩
  · obtain ⟨hits, waits, rejections, misses, bypasses, failures⟩ := reach.settled done on
    have bypasses' : p.counted .bypass = p.marked .bypass - p.unstored S.settings := by omega
    refine ⟨?_, ?_, ?_, ?_, by omega, ?_, ?_, fun read => ?_⟩
    · exact hits ▸ reach.number .hit
    · exact waits ▸ reach.number .wait
    · exact rejections ▸ reach.number .rejection
    · exact misses ▸ reach.number .miss
    · exact bypasses' ▸ reach.number .bypass
    · exact failures ▸ reach.number .backendError
    · have responses := reach.responses done read
      have words : p.tally.hits + p.tally.misses + p.tally.waits + p.tally.bypasses + p.tally.rejections =
          .ofNat (p.counted .hit + p.counted .miss + p.counted .wait + p.counted .bypass + p.counted .rejection) := by
        rw [UInt64.ofNat_add, UInt64.ofNat_add, UInt64.ofNat_add, UInt64.ofNat_add, ← reach.number, ← reach.number,
          ← reach.number, ← reach.number, ← reach.number]
        rfl
      rw [words]
      exact congrArg _ (by omega)

end Pools

/-- A success that the store fails to take is counted as a miss and marked as a bypass. -/
theorem outcomes_accounted_unstored : ∃ (S : Surroundings) (store : Store) (p : Pool), Reach S store p ∧
    p.tasks.length = 1 ∧ p.marked .bypass = 1 ∧ p.unstored S.settings = 1 ∧ p.setFailed = 1 ∧
    p.tally.misses = .ofNat (p.marked .miss + p.unstored S.settings) ∧
    p.tally.bypasses = .ofNat (p.marked .bypass - p.unstored S.settings) ∧
    p.tally.backendErrors = .ofNat (p.undecided + p.setFailed) ∧
    p.tally.hits + p.tally.misses + p.tally.waits + p.tally.bypasses + p.tally.rejections = .ofNat p.tasks.length := by
  let answer : Response := ⟨200, .empty, .empty⟩
  let v : Visit := ⟨{ key := { override := some (.literal "k") } }, "/", [], some 0,
    ⟨"GET", { path := "/" }, .empty, .empty⟩⟩
  let S : Surroundings :=
    { settings := {}
      comes := (· = v)
      answers := fun _ _ r => r = answer
      others := fun _ => False
      mayFail := fun op => ∃ key e, op = .set key e
      mayDrop := fun _ => False }
  let empty (misses : UInt64) (locks : Std.TreeMap String Lock) (token : Token) : Store :=
    ⟨⟨∅, ∅, 0, 1, { misses := misses }, by decide⟩, ∅, locks, token⟩
  let locks : Std.TreeMap String Lock := (∅ : Std.TreeMap String Lock).insert "k" ⟨1, 0, 5000⟩
  have missed : Answered S 0 0 (empty 0 ∅ 0) {} (.operate (.get "k")) (.ok none) (empty 1 ∅ 0) {} := .operate _
  have locked : Answered S 0 0 (empty 1 ∅ 0) {} (.operate (.acquire "k" 5000)) (.ok (some 1)) (empty 1 locks 1) {} :=
    .operate (.acquire "k" 5000)
  have handled : S.answers 0 v.request answer := rfl
  have reach : Reach S (empty 0 ∅ 0) _ := Relation.ReflTransGen.refl.tail (.arrive _ (v := v) rfl)
    |>.tail (.turn (i := 0) rfl rfl missed) |>.tail (.turn (i := 0) rfl rfl locked)
    |>.tail (.turn (i := 0) rfl rfl (.hold _)) |>.tail (.turn (i := 0) rfl rfl (.count .miss))
    |>.tail (.turn (i := 0) rfl rfl (.handle handled)) |>.tail (.turn (i := 0) rfl rfl .clock)
    |>.tail (.turn (i := 0) rfl rfl (.fault (.backend "down") ⟨_, _, rfl⟩))
    |>.tail (.turn (i := 0) rfl rfl (.count .backendError)) |>.tail (.turn (i := 0) rfl rfl (.disarm _))
    |>.tail (.turn (i := 0) rfl rfl (.operate _))
  obtain ⟨-, -, accounted⟩ := outcomes_accounted reach
  obtain ⟨-, -, -, misses, -, bypasses, failures, total⟩ := accounted rfl fun t mem => by
    cases List.mem_singleton.1 mem
    exact ⟨_, rfl⟩
  refine ⟨S, _, _, reach, rfl, ?_, ?_, ?_, misses, bypasses, failures, total fun t mem => ?_⟩
  · rfl
  · rfl
  · rfl
  · cases List.mem_singleton.1 mem
    rfl

end ResponseCache
