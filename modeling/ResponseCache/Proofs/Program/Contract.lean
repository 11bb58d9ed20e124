import ResponseCache.Program

/-!
# Contracts of programs

An `Event` is an action of a program with its answer, and what the store was like at that moment. A contract says
which actions a program may take, given what happened to it so far, and which answers it may count on; `Program.Meets`
says that a program keeps to it, whatever it is answered, and ends as promised. Contracts are put together along the
program (`Meets.bind`).
-/

namespace ResponseCache.Program

/-- An action with its answer, its instant, and the store before it. -/
structure Event where
  now : Instant
  store : Store
  action : Action
  reply : action.Reply

/-- By a log an action was answered so. -/
def Heard (action : Action) (reply : action.Reply) (log : List Event) : Prop :=
  ∃ now store, (⟨now, store, action, reply⟩ : Event) ∈ log

theorem Heard.mono {action : Action} {reply : action.Reply} {log log' : List Event} (sub : log ⊆ log') :
    Heard action reply log → Heard action reply log'
  | ⟨now, store, mem⟩ => ⟨now, store, sub mem⟩

/-- What is demanded of a program, given its events so far, the latest first, and what it is granted. -/
structure Contract where
  demands : List Event → Action → Prop
  grants : Event → Prop

variable {α β : Type} {c : Contract}

/-- Every action of a log was as demanded when it was taken, and its answer as granted. -/
def Kept (c : Contract) : List Event → Prop
  | [] => True
  | e :: log => c.demands log e.action ∧ c.grants e ∧ Kept c log

/-- The events before an event decide what was demanded of it. -/
theorem Kept.split {e : Event} {earlier : List Event} : ∀ {later : List Event}, Kept c (later ++ e :: earlier) →
    c.demands earlier e.action ∧ c.grants e ∧ Kept c earlier
  | [], kept => kept
  | _ :: _, kept => Kept.split kept.2.2

/-- At every event of a log there is what came before it, and what was demanded then. -/
theorem Kept.of_mem {e : Event} {log : List Event} (kept : Kept c log) (mem : e ∈ log) :
    ∃ later earlier, log = later ++ e :: earlier ∧ c.demands earlier e.action ∧ Kept c earlier := by
  obtain ⟨later, earlier, rfl⟩ := List.mem_iff_append.1 mem
  exact ⟨later, earlier, rfl, kept.split.1, kept.split.2.2⟩

theorem Kept.grants {e : Event} {log : List Event} (kept : Kept c log) (mem : e ∈ log) : c.grants e := by
  obtain ⟨later, earlier, rfl⟩ := List.mem_iff_append.1 mem
  exact kept.split.2.1

/-- The program keeps to the contract after the events of a log, and its result and the log that it ends with are as
promised. -/
def Meets (c : Contract) (promise : List Event → α → Prop) : List Event → Program α → Prop
  | log, done a => promise log a
  | log, perform action resume => c.demands log action ∧ ∀ (now : Instant) (store : Store) (reply : action.Reply),
      c.grants ⟨now, store, action, reply⟩ → (resume reply).Meets c promise (⟨now, store, action, reply⟩ :: log)

namespace Meets

variable {promise promise' : List Event → α → Prop} {log : List Event}

theorem mono {p : Program α} : ∀ {log : List Event}, (∀ log a, promise log a → promise' log a) →
    p.Meets c promise log → p.Meets c promise' log := by
  induction p with
  | done a => exact fun le meets => le _ _ meets
  | perform action resume ih =>
    intro log le meets
    obtain ⟨demanded, rest⟩ := meets
    exact ⟨demanded, fun now store reply granted => ih reply le (rest now store reply granted)⟩

theorem pure {a : α} (promised : promise log a) : (pure a : Program α).Meets c promise log := promised

/-- **A program goes on** with the result of another one. -/
theorem bind {q : List Event → α → Prop} {p : Program α} {next : α → Program β} {promise' : List Event → β → Prop} :
    ∀ {log : List Event}, p.Meets c q log → (∀ log a, q log a → (next a).Meets c promise' log) →
      (p >>= next).Meets c promise' log := by
  induction p with
  | done a => exact fun meets rest => rest _ a meets
  | perform action resume ih =>
    intro log meets rest
    obtain ⟨demanded, more⟩ := meets
    exact ⟨demanded, fun now store reply granted => ih reply (more now store reply granted) rest⟩

/-- One action. -/
theorem act {action : Action} {promise : List Event → action.Reply → Prop} (demanded : c.demands log action)
    (promised : ∀ now store reply, c.grants ⟨now, store, action, reply⟩ →
      promise (⟨now, store, action, reply⟩ :: log) reply) : (act action).Meets c promise log :=
  ⟨demanded, promised⟩

/-- What every demanded action leaves true of a log holds at the end if it held at the beginning. -/
theorem keep {keeps : List Event → Prop}
    (grow : ∀ e log, c.demands log e.action → keeps log → keeps (e :: log)) {p : Program α} :
    ∀ {log : List Event}, keeps log → p.Meets c promise log →
      p.Meets c (fun log a => promise log a ∧ keeps log) log := by
  induction p with
  | done a => exact fun held meets => ⟨meets, held⟩
  | perform action resume ih =>
    intro log held meets
    obtain ⟨demanded, rest⟩ := meets
    exact ⟨demanded, fun now store reply granted =>
      ih reply (grow _ _ demanded held) (rest now store reply granted)⟩

/-- A log only grows. -/
theorem grows {p : Program α} {log : List Event} (meets : p.Meets c promise log) :
    p.Meets c (fun log' a => promise log' a ∧ log <:+ log') log :=
  meets.keep (fun _ _ _ suffix => suffix.trans (List.suffix_cons ..)) List.suffix_rfl

/-- A contract that demands no more and grants no less is kept too. -/
theorem weaken {c' : Contract} {p : Program α} {log : List Event} (meets : p.Meets c promise log)
    (demands : ∀ log action, c.demands log action → c'.demands log action) (grants : ∀ e, c'.grants e → c.grants e) :
    p.Meets c' promise log := by
  induction p generalizing log with
  | done a => exact meets
  | perform action resume ih =>
    obtain ⟨demanded, rest⟩ := meets
    exact ⟨demands _ _ demanded, fun now store reply granted => ih reply (rest now store reply (grants _ granted))⟩

/-- **Another contract is kept too**, if it demands no more in every log that keeps to this one, which grants
anything, and has events only that the other one grants. -/
theorem derive {c' : Contract} {promise' : List Event → α → Prop} (nothing : ∀ e, c.grants e)
    (demands : ∀ log action, Kept c log → (∀ e ∈ log, c'.grants e) → c.demands log action → c'.demands log action)
    (promises : ∀ log a, Kept c log → (∀ e ∈ log, c'.grants e) → promise log a → promise' log a) {p : Program α} :
    ∀ {log : List Event}, Kept c log → (∀ e ∈ log, c'.grants e) → p.Meets c promise log → p.Meets c' promise' log := by
  induction p with
  | done a => exact fun kept granted meets => promises _ a kept granted meets
  | perform action resume ih =>
    intro log kept granted meets
    obtain ⟨demanded, rest⟩ := meets
    refine ⟨demands log action kept granted demanded, fun now store reply grants => ?_⟩
    exact ih reply ⟨demanded, nothing _, kept⟩ (List.forall_mem_cons.2 ⟨grants, granted⟩)
      (rest now store reply (nothing _))

end Meets

/-! ## Runs on their own -/

/-- What may come of a program, whatever it is answered: its events so far, the latest first, and what is left of it. -/
inductive Plays (program : Program α) : List Event → Program α → Prop
  | start : Plays program [] program
  | answer {log : List Event} {action : Action} {resume : action.Reply → Program α} (now : Instant) (store : Store)
      (reply : action.Reply) : Plays program log (perform action resume) →
      Plays program (⟨now, store, action, reply⟩ :: log) (resume reply)

/-- A program that meets a contract without grants keeps to it however it is answered. -/
theorem Meets.plays {promise : List Event → α → Prop} {program rest : Program α} {log : List Event}
    (meets : program.Meets c promise []) (nothing : ∀ e, c.grants e) (plays : program.Plays log rest) :
    Kept c log ∧ rest.Meets c promise log := by
  induction plays with
  | start => exact ⟨trivial, meets⟩
  | answer now store reply _ ih =>
    obtain ⟨kept, demanded, more⟩ := ih
    exact ⟨⟨demanded, nothing _, kept⟩, more now store reply (nothing _)⟩

end ResponseCache.Program
