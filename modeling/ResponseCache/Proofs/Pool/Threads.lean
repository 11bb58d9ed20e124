import ResponseCache.Proofs.Pool.Basic
import ResponseCache.Simulation.Thread

/-!
# Threads are requests of a pool

Threads take turns up to their next halt, in a world that answers them at once; a pool takes any one action at a time.
A turn of a thread is a run of the pool (`turn_reach`), whatever the probe refuses and the handlers are scripted to
do, and whether the thread ends, halts, crashes or is cut off. So what holds of every pool that can be reached holds
whatever threads do.
-/

namespace ResponseCache

open Http

/-! ## Runs in a world -/

namespace Simulation

open Relation (ReflTransGen)

variable {S : Surroundings} {w : World} {tasks : List Task} {α : Type} {tell : Response → α}

/-- The pool of requests in a world. -/
def World.pool (w : World) (tasks : List Task) : Pool := ⟨w.now, w.store, w.tally, tasks, w.owed⟩

/-- The surroundings of a pool allow what the probe and the scripts of a world do. -/
structure Allows (S : Surroundings) (w : World) : Prop where
  refusals : ∀ probe, w.probe = some probe → ∀ op e, probe.refusal? op = some e → S.mayFail op
  replies : ∀ endpoint call, ((w.scripts.getD endpoint []).reply call).crashes = false →
    ∀ request, S.answers endpoint request (((w.scripts.getD endpoint []).reply call).response call request)

/-- What a probe takes note of does not change what it refuses. -/
theorem Probe.refusal?_note (probe : Probe) (noted op : Operation) :
    (probe.note noted).refusal? op = probe.refusal? op := by
  unfold Probe.note
  split
  · split <;> rfl
  · rfl

@[simp] theorem World.now_operate (w : World) (op : Operation) : (w.operate op).2.now = w.now := by
  unfold World.operate
  dsimp only
  split <;> rfl

@[simp] theorem World.owed_operate (w : World) (op : Operation) : (w.operate op).2.owed = w.owed := by
  unfold World.operate
  dsimp only
  split <;> rfl

@[simp] theorem World.tally_operate (w : World) (op : Operation) : (w.operate op).2.tally = w.tally := by
  unfold World.operate
  dsimp only
  split <;> rfl

/-- **An operation of a world** is answered as in a pool. -/
theorem Allows.operate (allows : Allows S w) (op : Operation) (since : Instant) :
    Answered S w.now since w.store w.tally (.operate op) (w.operate op).1 (w.operate op).2.store
      (w.operate op).2.tally ∧
      Allows S (w.operate op).2 := by
  have refusals : ∀ probe, w.probe.map (·.note op) = some probe → ∀ op' e, probe.refusal? op' = some e →
      S.mayFail op' := by
    intro probe noted op' e refused
    obtain ⟨before, here, rfl⟩ := Option.map_eq_some_iff.1 noted
    exact allows.refusals before here op' e ((before.refusal?_note op op').symm.trans refused)
  unfold World.operate
  dsimp only
  split
  · next e refused =>
    obtain ⟨probe, noted, refused⟩ := Option.bind_eq_some_iff.1 refused
    exact ⟨.fault e (refusals probe noted op e refused), refusals, allows.replies⟩
  · exact ⟨.operate op, refusals, allows.replies⟩

/-- A request waits until an instant for an answer that is known, or crashes then. -/
inductive Waits (S : Surroundings) (tell : Response → α) (task : Task) (wake : Instant) :
    Except String (Program α) → Prop
  | answer {action : Action} {resume : action.Reply → Program Response} (reply : action.Reply) :
      task.next = some (.perform action resume) → action.suspends = true → action.holding task.held = task.held →
      (∀ now, wake ≤ now → ∀ store tally, Answered S now task.since store tally action reply store tally) →
      Waits S tell task wake (.ok (tell <$> resume reply))
  | crash {action : Action} {resume : action.Reply → Program Response} (reason : String) :
      task.next = some (.perform action resume) → action.suspends = true → Waits S tell task wake (.error reason)

theorem Waits.suspended {task : Task} {wake : Instant} {next : Except String (Program α)}
    (waits : Waits S tell task wake next) : ∃ (action : Action) (resume : action.Reply → Program Response),
      task.next = some (.perform action resume) ∧ action.suspends = true := by
  cases waits with
  | answer _ has suspends => exact ⟨_, _, has, suspends⟩
  | crash _ has suspends => exact ⟨_, _, has, suspends⟩

/-- A request of a pool stands where a run has come to a halt. -/
inductive Stands (S : Surroundings) (tell : Response → α) (task : Task) : Halt α → Prop
  | finished {r : Response} : task.next = some (.done r) → Stands S tell task (.finished (tell r))
  | asleep {wake : Instant} {next : Except String (Program α)} : Waits S tell task wake next →
      Stands S tell task (.asleep wake next)
  | crashed {action : Action} {resume : action.Reply → Program Response} (reason : String) :
      task.next = some (.perform action resume) → action.suspends = true → Stands S tell task (.crashed reason)

/-- From a world the request at a place of its pool gets to where a run has come to a halt. -/
def Gets (S : Surroundings) (tell : Response → α) (w : World) (tasks : List Task) (i : Nat) (v : Visit)
    (out : World × List Guard × Halt α) : Prop :=
  ∃ t, ReflTransGen (Pool.Step S) (w.pool tasks) (out.1.pool (tasks.set i t)) ∧ Allows S out.1 ∧ t.visit = v ∧
    t.held = out.2.1 ∧ Stands S tell t out.2.2

theorem Gets.stay {i : Nat} {t : Task} {halt : Halt α} (here : tasks[i]? = some t) (allows : Allows S w)
    (stands : Stands S tell t halt) : Gets S tell w tasks i t.visit (w, t.held, halt) := by
  obtain ⟨lt, rfl⟩ := List.getElem?_eq_some_iff.1 here
  refine ⟨tasks[i], ?_, allows, rfl, rfl, stands⟩
  rw [List.set_getElem_self]

/-- An answer to one action, and then the rest of the run. -/
theorem Gets.turn {i : Nat} {t : Task} {action : Action} {resume : action.Reply → Program Response}
    {reply : action.Reply} {w' : World} {v : Visit} {out : World × List Guard × Halt α}
    (here : tasks[i]? = some t) (next : t.next = some (.perform action resume))
    (answered : Answered S w.now t.since w.store w.tally action reply w'.store w'.tally) (now : w'.now = w.now)
    (owed : w'.owed = w.owed)
    (rest : ∀ t', t'.next = some (resume reply) → t'.held = action.holding t.held → t'.visit = t.visit →
      t'.since = w.now → Gets S tell w' (tasks.set i t') i v out) : Gets S tell w tasks i v out := by
  let t' : Task := { t with
    next := some (resume reply)
    since := w.now
    held := action.holding t.held
    log := ⟨w.now, w.store, action, reply⟩ :: t.log }
  have step : Pool.Step S (w.pool tasks) (w'.pool (tasks.set i t')) := by
    rw [World.pool, World.pool, now, owed]
    exact .turn here next answered
  obtain ⟨t'', reach, rest⟩ := rest t' rfl rfl rfl rfl
  rw [List.set_set] at reach
  exact ⟨t'', .head step reach, rest⟩

/-- **A run of a program** in a world is a run of the pool. -/
theorem run_gets {i : Nat} (program : Program Response) : ∀ {w : World} {tasks : List Task} {t : Task}, Allows S w →
    tasks[i]? = some t → t.next = some program → t.since ≤ w.now →
    Gets S tell w tasks i t.visit (w.run t.held (tell <$> program)) := by
  induction program with
  | done r =>
    intro w tasks t allows here next since_le
    exact .stay here allows (.finished next)
  | perform action resume ih =>
    intro w tasks t allows here next since_le
    have lt : i < tasks.length := (List.getElem?_eq_some_iff.1 here).1
    -- the run goes on in another world after an action that is answered at once
    have goes_on : ∀ (w' : World) {reply : action.Reply},
        Answered S w.now t.since w.store w.tally action reply w'.store w'.tally → w'.now = w.now → w'.owed = w.owed →
        Allows S w' → Gets S tell w tasks i t.visit (w'.run (action.holding t.held) (tell <$> resume reply)) := by
      intro w' reply answered now owed allows'
      refine .turn here next answered now owed fun t' next' held' visit' since' => ?_
      rw [← held', ← visit']
      exact ih reply allows' (List.getElem?_set_self lt) next' (Nat.le_of_eq (since'.trans now.symm))
    cases action with
    | operate op =>
      obtain ⟨answered, allows'⟩ := allows.operate op t.since
      exact goes_on _ answered (w.now_operate op) (w.owed_operate op) allows'
    | clock => exact goes_on w .clock rfl rfl allows
    | sleep duration =>
      change Gets S tell w tasks i t.visit
        (w.run t.held (.perform (.sleep duration) fun reply => tell <$> resume reply))
      rw [World.run]
      split
      · next none => exact goes_on w (.sleep (none ▸ since_le)) rfl rfl allows
      · refine .stay here allows (.asleep (.answer () next rfl rfl fun now wake store tally => .sleep ?_))
        exact Nat.le_trans (Nat.add_le_add_right since_le _) wake
    | count outcome =>
      exact goes_on { w with tally := w.tally.count outcome } (.count outcome) rfl rfl ⟨allows.refusals, allows.replies⟩
    | readTally => exact goes_on w .readTally rfl rfl allows
    | clearTally => exact goes_on { w with tally := {} } .clearTally rfl rfl ⟨allows.refusals, allows.replies⟩
    | hold g => exact goes_on w (.hold g) rfl rfl allows
    | disarm g => exact goes_on w (.disarm g) rfl rfl allows
    | handle endpoint request =>
      change Gets S tell w tasks i t.visit
        (w.run t.held (.perform (.handle endpoint request) fun reply => tell <$> resume reply))
      rw [World.run]
      have replies := allows.replies endpoint (w.call endpoint).1
      have called : Allows S (w.call endpoint).2.2 := ⟨allows.refusals, allows.replies⟩
      dsimp only
      split
      · split
        · exact Gets.stay here called (.crashed crashText next rfl)
        · next answers => exact goes_on _ (.handle (replies (Bool.eq_false_iff.2 answers) request)) rfl rfl called
      · refine Gets.stay here called (.asleep ?_)
        split
        · exact .crash crashText next rfl
        · next answers =>
          refine .answer _ next rfl rfl fun now wake store tally => ?_
          exact .handle (replies (Bool.eq_false_iff.2 answers) request)

/-! ## Turns of a thread -/

theorem pass_step (w : World) (tasks : List Task) (due : Instant) :
    Pool.Step S (w.pool tasks) ({ w with now := max w.now due }.pool tasks) := by
  have pass := Pool.Step.pass (S := S) (w.pool tasks) (max w.now due - w.now)
  rw [World.pool, Nat.add_sub_cancel' (Nat.le_max_left ..)] at pass
  exact pass

/-- The world after the lock of a guard was released. -/
def World.release (w : World) (g : Guard) : World := (w.operate (.release g.key g.token)).2

theorem World.release_owing (w : World) (owed : List Guard) (g : Guard) :
    { w with owed := owed }.release g = { w.release g with owed := owed } := by
  unfold World.release World.operate
  dsimp only
  split <;> rfl

theorem foldl_release_reach (owed : List Guard) : ∀ {w : World}, Allows S w →
    ReflTransGen (Pool.Step S) ({ w with owed := owed }.pool tasks)
      ((owed.foldl World.release { w with owed := [] }).pool tasks) ∧
      Allows S (owed.foldl World.release { w with owed := [] }) := by
  induction owed with
  | nil => exact fun allows => ⟨.refl, allows.refusals, allows.replies⟩
  | cons g owed ih =>
    intro w allows
    obtain ⟨answered, allows'⟩ := allows.operate (.release g.key g.token) w.now
    have step :
        Pool.Step S ({ w with owed := g :: owed }.pool tasks) ({ w.release g with owed := owed }.pool tasks) := by
      have settle := Pool.Step.settle (p := { w with owed := g :: owed }.pool tasks) List.mem_cons_self answered
      rw [World.pool, List.erase_cons_head] at settle
      rw [World.pool, World.pool, World.release, World.now_operate, World.tally_operate]
      exact settle
    rw [List.foldl_cons, World.release_owing]
    exact ⟨.head step (ih allows').1, (ih allows').2⟩

/-- **What is owed** is settled step by step. -/
theorem settle_reach (allows : Allows S w) (tasks : List Task) :
    ReflTransGen (Pool.Step S) (w.pool tasks) (w.settle.pool tasks) ∧ Allows S w.settle :=
  foldl_release_reach w.owed allows

/-- A request of a pool goes on as a thread does: it has just come in, or waits. -/
inductive Follows (S : Surroundings) (tell : Response → α) (task : Task) (t : Thread α) : Prop
  | ready {program : Program Response} : task.held = t.held → task.next = some program →
      t.next = .ok (tell <$> program) → task.since ≤ t.wake → (∀ limit, t.limit = some limit → t.wake ≤ limit) →
      Follows S tell task t
  | waits : task.held = t.held → Waits S tell task t.wake t.next → Follows S tell task t

/-- What becomes of a request when a thread has had its turn. -/
inductive Becomes (S : Surroundings) (tell : Response → α) (task : Task) : Thread α ⊕ Ending α → Prop
  | running {t : Thread α} : Follows S tell task t → Becomes S tell task (.inl t)
  | finished {r : Response} : task.next = some (.done r) → Becomes S tell task (.inr (.finished (tell r)))
  | crashed (reason : String) : task.next = none → Becomes S tell task (.inr (.crashed reason))
  | cutOff : task.next = none → Becomes S tell task (.inr .cutOff)

/-- From a world the request at a place of its pool gets to where a turn of a thread ends. -/
def Turns (S : Surroundings) (tell : Response → α) (w : World) (tasks : List Task) (i : Nat) (v : Visit)
    (out : World × (Thread α ⊕ Ending α)) : Prop :=
  ∃ task, ReflTransGen (Pool.Step S) (w.pool tasks) (out.1.pool (tasks.set i task)) ∧ Allows S out.1 ∧ task.visit = v ∧
    Becomes S tell task out.2

variable {i : Nat} {task : Task} {t : Thread α}

/-- A thread that goes on runs as its request does. -/
theorem Follows.gets (follows : Follows S tell task t) (allows : Allows S w) (here : tasks[i]? = some task)
    {program : Program α} (next : t.next = .ok program) (due : t.wake ≤ w.now) :
    Gets S tell w tasks i task.visit (w.run t.held program) := by
  cases follows with
  | ready held has next' since_le =>
    rw [next] at next'
    cases next'
    rw [← held]
    exact run_gets _ allows here has (Nat.le_trans since_le due)
  | waits held waits =>
    rw [next] at waits
    cases waits with
    | answer reply has suspends same answered =>
      refine .turn here has (answered w.now due w.store w.tally) rfl rfl fun task' next' held' visit' since' => ?_
      rw [← visit', ← held, ← same, ← held']
      exact run_gets _ allows (List.getElem?_set_self (List.getElem?_eq_some_iff.1 here).1) next' (Nat.le_of_eq since')

/-- What goes before a turn, and leaves the other requests alone. -/
theorem Turns.after {w' : World} {tasks' : List Task} {v : Visit} {out : World × (Thread α ⊕ Ending α)}
    (reach : ReflTransGen (Pool.Step S) (w.pool tasks) (w'.pool tasks')) (others : ∀ t, tasks'.set i t = tasks.set i t)
    (turns : Turns S tell w' tasks' i v out) : Turns S tell w tasks i v out := by
  obtain ⟨task, reach', rest⟩ := turns
  rw [others] at reach'
  exact ⟨task, reach.trans reach', rest⟩

/-- A request that waits may be given up. -/
theorem drop_turns (drops : ∀ v, S.mayDrop v) (allows : Allows S w) (here : tasks[i]? = some task)
    (suspended : ∃ (action : Action) (resume : action.Reply → Program Response),
      task.next = some (.perform action resume) ∧ action.suspends = true) {ending : Ending α}
    (becomes : ∀ task : Task, task.next = none → Becomes S tell task (.inr ending)) :
    Turns S tell w tasks i task.visit ((w.drop task.held).settle, .inr ending) := by
  obtain ⟨action, resume, next, suspends⟩ := suspended
  have step : Pool.Step S (w.pool tasks)
      ((w.drop task.held).pool (tasks.set i { task with next := none, held := [] })) :=
    .drop here next suspends (drops _)
  have allows : Allows S (w.drop task.held) := ⟨allows.refusals, allows.replies⟩
  obtain ⟨settled, allows'⟩ := settle_reach allows (tasks.set i { task with next := none, held := [] })
  exact ⟨_, .head step settled, allows', rfl, becomes _ rfl⟩

/-- A request that is done is let go. -/
theorem retire_turns (allows : Allows S w) (here : tasks[i]? = some task) {r : Response}
    (next : task.next = some (.done r)) :
    Turns S tell w tasks i task.visit ((w.drop task.held).settle, .inr (.finished (tell r))) := by
  have step : Pool.Step S (w.pool tasks) ((w.drop task.held).pool (tasks.set i { task with held := [] })) :=
    .retire here next
  have allows : Allows S (w.drop task.held) := ⟨allows.refusals, allows.replies⟩
  obtain ⟨settled, allows'⟩ := settle_reach allows (tasks.set i { task with held := [] })
  exact ⟨_, .head step settled, allows', rfl, .finished next⟩

/-- **A turn of a thread** is a run of the pool. -/
theorem turn_reach (drops : ∀ v, S.mayDrop v) (allows : Allows S w) (here : tasks[i]? = some task)
    (follows : Follows S tell task t) : Turns S tell w tasks i task.visit (t.turn w) := by
  unfold Thread.turn
  extract_lets w'
  have pass : Pool.Step S (w.pool tasks) (w'.pool tasks) := pass_step w tasks t.due
  have due : t.due ≤ w'.now := Nat.le_max_right ..
  have allows : Allows S w' := ⟨allows.refusals, allows.replies⟩
  clear_value w'
  refine .after (.single pass) (fun _ => rfl) ?_
  have lt : i < tasks.length := (List.getElem?_eq_some_iff.1 here).1
  split
  · next early =>
    cases follows with
    | ready held has next since_le limited =>
      have : t.due = t.wake := by
        unfold Thread.due
        split
        · rfl
        · next limit eq => exact Nat.min_eq_left (limited limit eq)
      exact absurd (this ▸ due) (Nat.not_le_of_lt early)
    | waits held waits =>
      rw [← held]
      exact drop_turns drops allows here waits.suspended fun _ => .cutOff
  · next on_time =>
    split
    · next reason eq =>
      cases follows with
      | ready held has next => cases next.symm.trans eq
      | waits held waits =>
        rw [← held]
        exact drop_turns drops allows here waits.suspended fun _ => .crashed reason
    · next program eq =>
      have gets := follows.gets allows here eq (Nat.le_of_not_lt on_time)
      -- where the run has come to a halt
      obtain ⟨task', reach, allows, visit, held, stands⟩ := gets
      have here' := List.getElem?_set_self (a := task') lt
      rw [← visit]
      refine .after reach (fun t => List.set_set ..) ?_
      generalize w'.run t.held program = out at allows held stands
      obtain ⟨w'', held', halt⟩ := out
      cases held
      cases stands with
      | finished has => exact retire_turns allows here' has
      | crashed reason has suspends =>
        exact drop_turns drops allows here' ⟨_, _, has, suspends⟩ fun _ => .crashed reason
      | asleep waits =>
        dsimp only
        split
        · exact drop_turns drops allows here' waits.suspended fun _ => .cutOff
        · obtain ⟨settled, allows'⟩ := settle_reach allows (tasks.set i task')
          refine ⟨task', ?_, allows', rfl, .running (.waits rfl waits)⟩
          rw [List.set_set]
          exact settled

variable (tell) in
/-- A request that comes in is followed by a thread that begins. -/
theorem arrive_follows {v : Visit} (comes : S.comes v) (w : World) (tasks : List Task) (limit : Option Millis) :
    ∃ task : Task, Pool.Step S (w.pool tasks) (w.pool (tasks ++ [task])) ∧ task.visit = v ∧
      Follows S tell task ⟨w.now, limit.map (w.now + ·), [], .ok (tell <$> v.serve S.settings)⟩ := by
  refine ⟨_, .arrive (w.pool tasks) comes, rfl, .ready rfl rfl rfl (Nat.le_refl _) fun last limited => ?_⟩
  obtain ⟨duration, -, rfl⟩ := Option.map_eq_some_iff.1 limited
  exact Nat.le_add_right ..

end Simulation

end ResponseCache
