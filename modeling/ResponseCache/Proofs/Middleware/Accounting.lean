import ResponseCache.Proofs.Middleware.Serving

/-!
# What a request adds to the tally

A request counts its way when it is decided, and a failure of the store when that is met; its response is marked at
the end. The two views differ by one correction: a computation that was counted as a miss and whose success could not
be stored is marked as a bypass (`unstored`). So the outcomes that a request has counted balance with the mark of its
response, with the failures that it met, and with the runs of its handler (`Balanced`), whatever it was answered
(`Finished.balanced`). With the statistics off it counts nothing.
-/

namespace ResponseCache

open Http
open Program (Event)

instance (m : Mark) (r : Response) : Decidable (r.Marked m) := inferInstanceAs (Decidable (_ = _))

/-- The response refuses the request: it is not marked, and its status is 503. -/
def Http.Response.refuses (r : Response) : Bool := (r.headers.get? Middleware.markField).isNone && r.status == 503

namespace Procedure.Facts

variable (f : Facts)

/-- The look-up that the request began with failed, or its attempt to lock. -/
def undecided : Bool := f.lookup || f.attempts.any failed

/-- A write failed. -/
def setFailed : Bool := f.writes.any (failed ·.2.2)

/-- The computation is one that stores: the key was locked, or it was found locked and the policy is to wait. -/
def storing (policy : Contention) : Bool :=
  f.attempts.any fun
    | .ok (some _) => true
    | .ok none => policy = .wait
    | .error _ => false

/-- A computation that stores gave a success, and nothing was stored. -/
def unstored (policy : Contention) : Bool :=
  f.storing policy && f.runs.any (·.isSuccess) && f.writes.all (failed ·.2.2)

end Procedure.Facts

namespace Accounting

open Procedure

variable {settings : Settings} {v : Visit} {f : Facts} {r : Response}

/-- The outcomes that a request has counted balance with the mark of its response, with the failures that it met and
with what it could not store. -/
structure Counts (policy : Contention) (f : Facts) (r : Response) : Prop where
  hits : f.outcomes.count .hit = (decide (r.Marked .hit)).toNat
  waits : f.outcomes.count .wait = (decide (r.Marked .wait)).toNat
  rejections : f.outcomes.count .rejection = r.refuses.toNat
  misses : f.outcomes.count .miss = (decide (r.Marked .miss)).toNat + (f.unstored policy).toNat
  bypasses : f.outcomes.count .bypass + (f.unstored policy).toNat = (decide (r.Marked .bypass)).toNat
  failures : f.outcomes.count .backendError = f.undecided.toNat + f.setFailed.toNat

/-- A request that is done: it has one response of five kinds, unless its body could not be read; its handler ran once
for a computation and not at all otherwise; and with the statistics on it has counted that. -/
structure Balanced (settings : Settings) (v : Visit) (f : Facts) (r : Response) : Prop where
  one : (decide (r.Marked .hit)).toNat + (decide (r.Marked .wait)).toNat + r.refuses.toNat +
    (decide (r.Marked .miss)).toNat + (decide (r.Marked .bypass)).toNat = (readable v).toNat
  ran : r.Marked .miss ∨ r.Marked .bypass → v.endpoint.isSome → f.runs.length = 1
  idle : r.Marked .hit ∨ r.Marked .wait ∨ r.refuses = true → f.runs = []
  counts : settings.enableStats = true → Counts (v.policy settings) f r

theorem refuses_mark (m : Mark) (r : Response) : (Middleware.mark m r).refuses = false := by
  have marked : (Middleware.mark m r).Marked m := Response.marked_mark.2 rfl
  unfold Response.Marked at marked
  rw [Response.refuses, marked]
  rfl

/-! ## The ways of a request -/

/-- A request that was answered from the cache. -/
theorem balanced_of_replayed {o : Outcome} {m : Mark} {a : List (Except CacheError (Option Token))}
    (read : readable v = true) (replays : Replays m o a) :
    Balanced settings v ⟨booked settings [o], a, [], [], false⟩ (Middleware.mark m r) := by
  cases replays
  all_goals
    refine ⟨by simp [Response.marked_mark, refuses_mark, read], by simp [Response.marked_mark], fun _ => rfl,
      fun on => ?_⟩
    constructor <;>
      simp [booked, on, Response.marked_mark, refuses_mark, Facts.unstored, Facts.setFailed, Facts.undecided,
        Procedure.failed]

/-- A request that was refused. -/
theorem balanced_of_refused (read : readable v = true) (seconds : Nat) :
    Balanced settings v ⟨booked settings [.rejection], [.ok none], [], [], false⟩
      (CacheError.lockContended seconds).response := by
  have unmarked := lockContended_unmarked seconds
  have refuses : (CacheError.lockContended seconds).response.refuses = true := by
    rw [Response.refuses, unmarked]
    rfl
  refine ⟨by simp [not_marked_lockContended, refuses, read], by simp [not_marked_lockContended], fun _ => rfl,
    fun on => ?_⟩
  constructor <;>
    simp [booked, on, not_marked_lockContended, refuses, Facts.unstored, Facts.setFailed, Facts.undecided,
      Procedure.failed]

/-- A request that computed its response: what could not be stored is marked as a bypass. -/
theorem balanced_of_computed (store : Bool) {m : Mark} (read : readable v = true)
    (storing : f.storing (v.policy settings) = store)
    (mark : m = if f.unstored (v.policy settings) then .bypass else if store then .miss else .bypass)
    (ran : v.endpoint.isSome → f.runs.length = 1)
    (outcomes : f.outcomes = booked settings ((if f.setFailed then [.backendError] else []) ++
      (if store then .miss else .bypass) :: if f.undecided then [.backendError] else [])) :
    Balanced settings v f (Middleware.mark m r) := by
  have computed : m = .miss ∨ m = .bypass := by
    rw [mark]
    split
    · exact .inr rfl
    · split
      · exact .inl rfl
      · exact .inr rfl
  refine ⟨?_, fun _ => ran, ?_, fun on => ?_⟩
  · rcases computed with rfl | rfl <;> simp [Response.marked_mark, refuses_mark, read]
  · rcases computed with rfl | rfl <;> simp [Response.marked_mark, refuses_mark]
  · rw [booked, if_pos on] at outcomes
    have only : f.unstored (v.policy settings) = true → store = true := fun unstored => by
      rw [Facts.unstored, Bool.and_eq_true, Bool.and_eq_true] at unstored
      exact storing.symm.trans unstored.1.1
    cases unstored : f.unstored (v.policy settings) <;> rw [unstored] at mark only <;> cases store <;>
      cases failure : f.setFailed <;> cases failure' : f.undecided <;> rw [failure, failure'] at outcomes
    all_goals first
      | (cases only rfl; done)
      | (constructor <;> simp [outcomes, mark, Response.marked_mark, refuses_mark, unstored, failure, failure'])

section Ways

variable {c : Computation} {os os' : List Outcome} {a : List (Except CacheError (Option Token))} {l : Bool}
  {rs : List Response} {ws : List (String × Entry × Except CacheError Unit)}

/-- A way counts a miss if its computation stores and a bypass if it does not, and a failure if it met one. -/
theorem outcomes_of_way (way : Way settings v c os a l) : os = (if c.store then .miss else .bypass) ::
    if (Facts.mk os' a rs ws l).undecided then [.backendError] else [] := by
  cases way <;> rfl

theorem storing_of_way (way : Way settings v c os a l) :
    (Facts.mk os' a rs ws l).storing (v.policy settings) = c.store := by
  cases way with
  | overdue policy | bypassed policy => simp [Facts.storing, policy, Computation.overdue, Computation.bypassing]
  | _ => rfl

theorem ran_of_answers (answers : Answers v r rs) (some : v.endpoint.isSome) : rs.length = 1 := by
  rcases answers with rfl | ⟨-, none, -⟩
  · rfl
  · simp [none] at some

theorem success_of_answers (answers : Answers v r rs) : rs.any (·.isSuccess) = r.isSuccess := by
  rcases answers with rfl | ⟨rfl, -, rfl⟩
  · simp
  · rfl

end Ways

end Accounting

open Procedure Accounting in
/-- **A request that is done** has counted what its response shows. -/
theorem Procedure.Finished.balanced {settings : Settings} {v : Visit} {log : List Event} {out : Response}
    (finished : Finished settings v log out) : Balanced settings v (facts log) out := by
  cases finished with
  | unread unread start eq =>
    have unmarked : ∀ m, decide ((Response.bare 413).Marked m) = false := fun _ => decide_eq_false nofun
    have uncomputed : ¬ ((Response.bare 413).Marked .miss ∨ (Response.bare 413).Marked .bypass) := by
      rintro (marked | marked) <;> cases marked
    rw [start, eq]
    refine ⟨?_, fun marked => absurd marked uncomputed, fun _ => rfl, fun _ => ?_⟩
    · simp only [unmarked, unread]
      rfl
    · exact ⟨by rw [unmarked]; rfl, by rw [unmarked]; rfl, rfl, by rw [unmarked]; rfl, by rw [unmarked]; rfl, rfl⟩
  | replayed read _ _ replays stands eq =>
    rw [stands.facts, eq]
    exact balanced_of_replayed read replays
  | refused read _ stands eq =>
    rw [stands.facts, eq]
    exact balanced_of_refused read _
  | answered read way answers _ stands _ eq =>
    rw [stands.facts, eq]
    refine balanced_of_computed _ read (storing_of_way way) ?_ (ran_of_answers answers) ?_
    · rw [markOf, way.mark, Facts.unstored, storing_of_way way, success_of_answers answers]
    · exact congrArg (fun os => booked settings (_ ++ os)) (outcomes_of_way way)

end ResponseCache
