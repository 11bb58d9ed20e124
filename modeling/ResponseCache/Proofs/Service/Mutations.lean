import ResponseCache.Proofs.Program.Backend
import ResponseCache.Simulation.Step

/-!
# Mutations that fail

The six calls by which a service changes what it holds are each one operation of its backend, so a call that fails on a
backend whose failing calls have no effect leaves everything as it was; with one exception: the statistics are reset by
clearing the tally first, and the tally is not restored when the backend then fails (`Mutation.program_failed`). The
endpoints for administrators make three of the calls, and answer with an error only where the call failed, or before it
(`App.serve_failed`).
-/

namespace ResponseCache

open Http

/-- The calls by which a service changes what it holds. -/
inductive Mutation where
  | set (key : String) (value : StoredResponse) (ttl : Millis) (compress : Bool) (tags : List String)
  | delete (key : String)
  | clear
  | invalidateTag (tag : String)
  | purge
  | resetStats

namespace Mutation

/-- What a mutation answers when it succeeds. -/
abbrev Result : Mutation → Type
  | set _ _ _ _ _ | clear | resetStats => Unit
  | delete _ => Bool
  | invalidateTag _ | purge => Nat

/-- What a service does for a mutation. -/
def program (settings : Settings) : (m : Mutation) → Program (Except CacheError m.Result)
  | set key value ttl compress tags => Service.set settings key value ttl compress tags
  | delete key => Program.operate (.delete key)
  | clear => Program.operate .clear
  | invalidateTag tag => Program.operate (.invalidateTag tag)
  | purge => Program.operate .purge
  | resetStats => Service.resetStats

/-- The step of a session that calls for a mutation. -/
def step : Mutation → Simulation.Step
  | set key value ttl compress tags => .set key value ttl compress tags
  | delete key => .delete key
  | clear => .clear
  | invalidateTag tag => .invalidateTag tag
  | purge => .purge
  | resetStats => .resetStats

/-- What a session tells of a mutation that succeeds. -/
def describe : (m : Mutation) → m.Result → Simulation.Answer
  | set _ _ _ _ _, _ | clear, _ | resetStats, _ => .ok
  | delete _, found => .flag found
  | invalidateTag _, count | purge, count => .number count

/-- A session runs the programs of mutations, and tells how they went. -/
theorem begin_step (session : Simulation.Session) (m : Mutation) :
    session.begin m.step =
      (session, Simulation.Session.tellResult m.describe <$> m.program session.app.settings) := by
  cases m <;> rfl

end Mutation

/-! ## What a failure leaves -/

/-- The store is as it was; so is everything, if the tally was not cleared or there was nothing to clear. -/
structure Spared {b : Backend} (cleared : Prop) (s s' : b.Holding) : Prop where
  store : s'.store = s.store
  all : s' = s ↔ (cleared → s.tally = {})

namespace Spared

variable {b : Backend} {cleared : Prop} {s : b.Holding}

/-- Nothing changed. -/
theorem same (not : ¬cleared) : Spared cleared s s := ⟨rfl, iff_of_true rfl fun is => (not is).elim⟩

/-- The tally was cleared. -/
theorem forgotten (is : cleared) : Spared cleared s { s with tally := {} } where
  store := rfl
  all := ⟨fun eq _ => (congrArg Backend.Holding.tally eq).symm, fun zero => Backend.Holding.ext rfl (zero is).symm⟩

theorem congr {cleared' : Prop} {s' : b.Holding} (same : cleared ↔ cleared') (spared : Spared cleared s s') :
    Spared cleared' s s' where
  store := spared.store
  all := spared.all.trans (imp_congr_left same)

end Spared

variable {b : Backend} {s s' : b.Holding}

/-- **A mutation that fails** leaves the store as it was, and the tally too unless it was to be reset. -/
theorem Mutation.program_failed (clean : b.FailsClean) (settings : Settings) {m : Mutation} {e : CacheError}
    (runs : b.Runs (m.program settings) s (.error e) s') : Spared (m = .resetStats) s s' := by
  cases m with
  | set key value ttl compress tags =>
    obtain ⟨now, _, rfl, runs⟩ := runs
    rw [clean.operate runs]
    exact .same nofun
  | resetStats =>
    obtain ⟨_, _, rfl, runs⟩ := runs
    rw [clean.operate runs]
    exact .forgotten rfl
  | delete _ | clear | invalidateTag _ | purge =>
    rw [clean.operate runs]
    exact .same nofun

/-! ## Requests of administrators -/

namespace Admin

/-- Only a call that failed is answered with an error. -/
theorem eq_error_of_answer {α : Type} {describe : α → Json} {reply : Except CacheError α}
    (failed : 400 ≤ (answer describe reply).status) : ∃ e, reply = .error e := by
  cases reply with
  | error e => exact ⟨e, rfl⟩
  | ok a => exact absurd failed (by decide : ¬(400 : UInt16) ≤ 200)

/-- An endpoint that tells how one call went, and tells of an error, has left what the call left. -/
theorem call_failed (clean : b.FailsClean) (m : Mutation) {describe : m.Result → Json} {response : Response}
    (runs : b.Runs (do return Except.ok (answer describe (← m.program {})) : Program (Except Crash Response)) s
      (.ok response) s')
    (failed : 400 ≤ response.status) : Spared (m = .resetStats) s s' := by
  obtain ⟨reply, _, called, eq, rfl⟩ := Backend.runs_bind.1 runs
  obtain rfl := Except.ok.inj eq
  obtain ⟨e, rfl⟩ := eq_error_of_answer failed
  exact Mutation.program_failed clean {} called

/-- An endpoint that answers with an error has left the store as it was. -/
theorem run_failed (clean : b.FailsClean) {endpoint : Admin} {params : List (String × String)} {response : Response}
    (runs : b.Runs (endpoint.run params) s (.ok response) s') (failed : 400 ≤ response.status) :
    Spared (endpoint = .resetStats) s s' := by
  have succeeded : ¬(400 : UInt16) ≤ 200 := by decide
  cases endpoint with
  | health =>
    obtain ⟨now, _, rfl, eq, rfl⟩ := runs
    obtain rfl := Except.ok.inj eq
    exact absurd failed succeeded
  | readStats =>
    obtain ⟨report, _, _, eq, rfl⟩ := Backend.runs_bind.1 runs
    cases told : report.summary with
    | error crash => rw [told] at eq; cases eq
    | ok document =>
      rw [told] at eq
      obtain rfl := Except.ok.inj eq
      exact absurd failed succeeded
  | resetStats => exact (call_failed clean .resetStats runs failed).congr (iff_of_true rfl rfl)
  | invalidateTag =>
    simp only [run] at runs
    split at runs
    · obtain ⟨-, rfl⟩ := runs
      exact .same nofun
    · next tag _ => exact (call_failed clean (.invalidateTag tag) runs failed).congr (iff_of_false nofun nofun)
  | clear => exact (call_failed clean .clear runs failed).congr (iff_of_false nofun nofun)

end Admin

namespace App

/-- A request does not get as far as a handler of the application. -/
def Aside (app : App) (r : Request) : Prop :=
  match Route.dispatch app.routes r.method r.target.path with
  | .notFound => True
  | .wrongMethod template _ => app.hasHandler template = false
  | .found route _ => route.endpoint.isHandler = false

/-- A request goes to an endpoint for administrators. -/
def GoesTo (app : App) (r : Request) (endpoint : Admin) : Prop :=
  ∃ route params, Route.dispatch app.routes r.method r.target.path = .found route params ∧
    route.endpoint = .admin endpoint

theorem dropBody_status (route : Route Endpoint) (r : Request) (response : Response) :
    (dropBody route r response).status = response.status := by
  unfold dropBody
  split <;> rfl

/-- **A request that goes past the handlers** and is answered with an error has left the store as it was, and the tally
too unless it asked for the statistics to be reset. -/
theorem serve_failed (clean : b.FailsClean) {app : App} {r : Request} (aside : app.Aside r) {response : Response}
    (runs : b.Runs (app.serve r) s (.ok response) s') (failed : 400 ≤ response.status) :
    Spared (app.GoesTo r .resetStats) s s' := by
  unfold Aside at aside
  unfold serve at runs
  split at runs
  · next way =>
    obtain ⟨-, rfl⟩ := runs
    exact .same fun ⟨route, params, found, _⟩ => nomatch way.symm.trans found
  · next template params way =>
    rw [way] at aside
    simp only [refuse, aside] at runs
    obtain ⟨-, rfl⟩ := runs
    exact .same fun ⟨route, params, found, _⟩ => nomatch way.symm.trans found
  · next route params way =>
    rw [way] at aside
    cases is : route.endpoint with
    | handler index => simp [is, Endpoint.isHandler] at aside
    | admin endpoint =>
      rw [is] at runs
      obtain ⟨shared, _, answered, eq, rfl⟩ := Backend.runs_bind.1 runs
      obtain ⟨own, called, rfl⟩ := Backend.runs_map.1 answered
      cases own with
      | error crash => cases eq
      | ok own =>
        obtain rfl := Except.ok.inj eq
        rw [dropBody_status] at failed
        have resets : endpoint = .resetStats ↔ app.GoesTo r .resetStats := by
          constructor
          · rintro rfl
            exact ⟨route, params, way, is⟩
          · rintro ⟨_, _, found, is'⟩
            cases way.symm.trans found
            exact Endpoint.admin.inj (is.symm.trans is')
        exact (Admin.run_failed clean called failed).congr resets

end App

/-- **A mutation that fails changes nothing**, and a request of an administrator that is answered with an error has
changed nothing, on every backend whose failing calls have no effect; but when the statistics were to be reset, the
tally is cleared all the same. -/
theorem failed_mutation_spares (b : Backend) (clean : b.FailsClean) (s s' : b.Holding) :
    (∀ (settings : Settings) (m : Mutation) (e : CacheError), b.Runs (m.program settings) s (.error e) s' →
      Spared (m = .resetStats) s s') ∧
    ∀ (app : App) (r : Request) (response : Response), app.Aside r → b.Runs (app.serve r) s (.ok response) s' →
      400 ≤ response.status → Spared (app.GoesTo r .resetStats) s s' := by
  constructor
  · intro settings m e runs
    exact Mutation.program_failed clean settings runs
  · intro app r response aside runs failed
    exact App.serve_failed clean aside runs failed

/-- A store that refuses to delete and to clear: neither the call nor the request of an administrator changes
anything. -/
theorem failed_mutation_spares_refused :
    let store : Store := ⟨⟨∅, ∅, 0, 3, {}, by decide⟩, ∅, ∅, 0⟩
    let w : Simulation.World :=
      { store := store, probe := some { refused := ["delete", "clear"] }, tally := { bypasses := 1 } }
    let app : App := { routes := App.adminRoutes }
    let r : Request := ⟨"DELETE", { path := "/cache" }, .empty, .empty⟩
    let response := Admin.share (CacheError.backend "clear refused").response
    Backend.memory.Runs ((Mutation.delete "k").program {}) w.holding (.error (.backend "delete refused")) w.holding ∧
      Spared (Mutation.delete "k" = .resetStats) w.holding w.holding ∧
      Backend.memory.Runs (app.serve r) w.holding (.ok response) w.holding ∧ response.status = 502 ∧
      Spared (app.GoesTo r .resetStats) w.holding w.holding := by
  intro store w app r response
  have refuses : w.run [] ((Mutation.delete "k").program {}) =
      (w, [], .finished (.error (.backend "delete refused"))) := rfl
  have deletes := Simulation.World.run_runs refuses
  have path : matchPath (app.routes.map (·.template)) r.target.path = some ("/cache", []) := by decide +kernel
  have found : Route.dispatch app.routes r.method r.target.path =
      .found ⟨"/cache", some "DELETE", .admin .clear⟩ [] := by
    rw [Route.dispatch, path]
    rfl
  have aside : app.Aside r := by
    simp only [App.Aside, found]
    rfl
  have answers : w.run [] (app.serve r) = (w, [], .finished (.ok response)) := by
    simp only [App.serve, found]
    rfl
  have serves := Simulation.World.run_runs answers
  obtain ⟨mutations, requests⟩ := failed_mutation_spares Backend.memory Backend.memory_failsClean w.holding w.holding
  exact ⟨deletes, mutations _ _ _ deletes, serves, rfl, requests app r response aside serves (by decide)⟩

/-- A reset that the store refuses has cleared the tally all the same. -/
theorem failed_reset_forgets :
    ∃ s s' : Backend.memory.Holding, Backend.memory.FailsClean ∧
      Backend.memory.Runs (Mutation.resetStats.program {}) s (.error (.backend "reset_stats refused")) s' ∧
      s.tally.bypasses = 1 ∧ s'.tally.bypasses = 0 := by
  let w : Simulation.World :=
    { store := ⟨⟨∅, ∅, 0, 3, {}, by decide⟩, ∅, ∅, 0⟩, probe := some { refused := ["reset_stats"] },
      tally := { bypasses := 1 } }
  have run : w.run [] (Mutation.resetStats.program {}) =
      ({ w with tally := {} }, [], .finished (.error (.backend "reset_stats refused"))) := rfl
  exact ⟨_, _, Backend.memory_failsClean, Simulation.World.run_runs run, rfl, rfl⟩

end ResponseCache
