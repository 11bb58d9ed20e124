import Mathlib.Data.List.Basic
import ResponseCache.Proofs.Program.Timeline
import ResponseCache.Service.Basic

/-!
# How a request waits for a value

A request that waits looks the key up every fifty milliseconds, and a last time at its deadline, whatever the store
does in the meantime (`await_polls`). `Polls` tells how such a wait goes: when it looks, and with what and when it
ends.

A wait that did not find anything is followed by one that begins at the next look-up and lasts as much less
(`pollInstant_succ`), so a single step leads from the one to the other (`Polls.step`), and the induction is on the
look-ups that are left. That the loop counts them never shows: the deadline always comes first.
-/

namespace ResponseCache

/-- What a look-up gives at an instant. -/
def Timeline.lookup (T : Timeline) (key : String) (now : Instant) : Except CacheError (Option StoredResponse) :=
  (T.run now (Service.get key)).result

/-- The value that a look-up gives at an instant, if it gives one; a failure gives none. -/
def Timeline.value? (T : Timeline) (key : String) (now : Instant) : Option StoredResponse :=
  match T.lookup key now with
  | .ok found => found
  | .error _ => none

namespace Service

/-- The instant of a look-up, by its number from zero on. -/
def pollInstant (start timeout i : Nat) : Nat := start + min (50 * i) timeout

/-- How a wait goes whose look-ups are numbered up to `last`: the first that gives a value, or the one at the
deadline. -/
structure Polls (T : Timeline) (key : String) (start timeout last : Nat) (run : Timed (Option StoredResponse)) :
    Prop where
  asked : run.asked = (List.range (last + 1)).map fun i => (pollInstant start timeout i, .get key)
  ended : run.ended = pollInstant start timeout last
  result : run.result = T.value? key run.ended
  before : ∀ i < last, T.value? key (pollInstant start timeout i) = none ∧ pollInstant start timeout i < start + timeout
  overdue : run.result = none → run.ended = start + timeout

variable {T : Timeline} {key : String} {start timeout deadline now : Nat}

/-! ## One look-up -/

theorem run_get (T : Timeline) (key : String) (now : Nat) :
    T.run now (get key) = ⟨[(now, .get key)], now, T.lookup key now⟩ := by
  unfold Timeline.lookup get
  simp only [Program.operate, Program.act, Program.perform_bind, Program.done_bind, Timeline.run]
  split <;> rfl

/-- A look-up that gives a value ends the wait. -/
theorem run_poll_found {polls : Nat} {value : StoredResponse} (found : T.value? key now = some value) :
    T.run now (poll key deadline (polls + 1)) = ⟨[(now, .get key)], now, some value⟩ := by
  have here : T.lookup key now = .ok (some value) := by
    unfold Timeline.value? at found
    split at found
    · next here => rw [here, found]
    · cases found
  rw [poll, Timeline.run_bind, run_get]
  simp only [here, Program.pure_eq, Timeline.run_done, List.append_nil]

/-- A look-up that gives none ends the wait at the deadline; before it, the wait goes on after a sleep. -/
theorem run_poll_missed {polls : Nat} (none : T.value? key now = none) :
    T.run now (poll key deadline (polls + 1)) =
      if deadline ≤ now then ⟨[(now, .get key)], now, .none⟩
      else
        let rest := T.run (now + min pollInterval (deadline - now)) (poll key deadline polls)
        ⟨(now, .get key) :: rest.asked, rest.ended, rest.result⟩ := by
  have missed : ∀ value, T.lookup key now ≠ .ok (some value) := by
    intro value found
    unfold Timeline.value? at none
    rw [found] at none
    cases none
  rw [poll, Timeline.run_bind, run_get]
  dsimp only
  split
  · next value found => exact absurd found (missed value)
  · simp only [Program.clock, Program.sleep, Program.act, Program.perform_bind, Program.done_bind, Program.pure_eq,
      Timeline.run_clock]
    split
    · rfl
    · rfl

/-! ## The wait -/

/-- The next look-up is the first of a wait that is shorter by the sleep before it. -/
theorem pollInstant_succ (start timeout i : Nat) :
    pollInstant start timeout (i + 1) =
      pollInstant (start + min pollInterval timeout) (timeout - min pollInterval timeout) i := by
  simp only [pollInstant, pollInterval]
  omega

theorem pollInstant_zero (start timeout : Nat) : pollInstant start timeout 0 = start := by simp [pollInstant]

/-- Both waits have the same deadline. -/
theorem deadline_succ (start timeout : Nat) :
    start + min pollInterval timeout + (timeout - min pollInterval timeout) = start + timeout := by omega

/-- The only look-up of a wait that ends with it. -/
theorem Polls.single {value : Option StoredResponse} (found : T.value? key start = value)
    (overdue : value = none → timeout = 0) : Polls T key start timeout 0 ⟨[(start, .get key)], start, value⟩ where
  asked := by simp [pollInstant_zero]
  ended := (pollInstant_zero start timeout).symm
  result := found.symm
  before := nofun
  overdue missed := by rw [overdue missed, Nat.add_zero]

/-- **One more look-up** in front of a wait, which gives nothing. -/
theorem Polls.step {last : Nat} {rest : Timed (Option StoredResponse)} (none : T.value? key start = none)
    (pos : 0 < timeout)
    (polls : Polls T key (start + min pollInterval timeout) (timeout - min pollInterval timeout) last rest) :
    Polls T key start timeout (last + 1) ⟨(start, .get key) :: rest.asked, rest.ended, rest.result⟩ where
  asked := by
    rw [List.range_succ_eq_map, List.map_cons, List.map_map, pollInstant_zero]
    refine List.cons_eq_cons.2 ⟨rfl, polls.asked.trans ?_⟩
    apply List.map_congr_left
    intro i _
    rw [Function.comp_apply, ← pollInstant_succ]
  ended := polls.ended.trans (pollInstant_succ start timeout last).symm
  result := polls.result
  before i lt := by
    cases i with
    | zero =>
      rw [pollInstant_zero]
      exact ⟨none, Nat.lt_add_of_pos_right pos⟩
    | succ i =>
      rw [pollInstant_succ, ← deadline_succ start timeout]
      exact polls.before i (Nat.lt_of_succ_lt_succ lt)
  overdue missed := (polls.overdue missed).trans (deadline_succ start timeout)

/-- The loop waits to the end, if it has look-ups enough. -/
theorem poll_polls (T : Timeline) (key : String) {polls : Nat} : ∀ {start timeout : Nat}, timeout ≤ 50 * polls →
    ∃ last, Polls T key start timeout last (T.run start (poll key (start + timeout) (polls + 1))) := by
  induction polls with
  | zero =>
    intro start timeout enough
    obtain rfl : timeout = 0 := by omega
    cases found : T.value? key start with
    | some value => exact ⟨0, run_poll_found found ▸ .single found nofun⟩
    | none =>
      rw [run_poll_missed found, if_pos (Nat.le_of_eq (Nat.add_zero start))]
      exact ⟨0, .single found fun _ => rfl⟩
  | succ polls ih =>
    intro start timeout enough
    cases found : T.value? key start with
    | some value => exact ⟨0, run_poll_found found ▸ .single found nofun⟩
    | none =>
      rw [run_poll_missed found, Nat.add_sub_cancel_left]
      by_cases due : timeout = 0
      · rw [if_pos (by omega)]
        exact ⟨0, .single found fun _ => due⟩
      · rw [if_neg (by omega)]
        have shorter : timeout - min pollInterval timeout ≤ 50 * polls := by
          rw [pollInterval]
          omega
        obtain ⟨last, rest⟩ := @ih (start + min pollInterval timeout) _ shorter
        rw [deadline_succ] at rest
        exact ⟨last + 1, rest.step found (Nat.pos_of_ne_zero due)⟩

theorem await_run (T : Timeline) (key : String) (start timeout : Nat) :
    T.run start (await key timeout) = T.run start (poll key (start + timeout) (timeout / pollInterval + 2)) := by
  rw [await]
  exact T.run_clock start _

/-- **A wait** looks the key up at its start, every fifty milliseconds, and at its deadline, until a look-up gives a
value; it gives back that value at that instant, and nothing at the deadline. So there is a bound on its look-ups, it
never ends after the deadline, and it does not miss a value that is there from some instant on until then. -/
theorem await_polls (T : Timeline) (key : String) (start timeout : Nat) :
    (∃ last, Polls T key start timeout last (T.run start (await key timeout))) ∧
    (T.run start (await key timeout)).asked.length ≤ (timeout + 49) / 50 + 1 ∧
    (T.run start (await key timeout)).ended ≤ start + timeout ∧
    ∀ since ≤ start + timeout, (∀ now, since ≤ now → now ≤ start + timeout → (T.value? key now).isSome) →
      (T.run start (await key timeout)).result.isSome := by
  rw [await_run]
  have enough : timeout ≤ 50 * (timeout / pollInterval + 1) := by
    rw [pollInterval]
    omega
  obtain ⟨last, polls⟩ := poll_polls T key enough
  refine ⟨⟨last, polls⟩, ?_, ?_, ?_⟩
  · rw [polls.asked, List.length_map, List.length_range]
    refine Nat.succ_le_succ (Nat.le_of_not_lt fun many => ?_)
    -- the look-up of that number would have been at the deadline
    have early := (polls.before _ many).2
    rw [pollInstant] at early
    omega
  · rw [polls.ended]
    exact Nat.add_le_add_left (Nat.min_le_right ..) start
  · intro since le there
    refine Option.isSome_iff_ne_none.2 fun missed => ?_
    have found := there (start + timeout) le (Nat.le_refl _)
    rw [← polls.overdue missed, ← polls.result, missed] at found
    cases found

/-- Surroundings whose store is down before an instant and holds one response from another instant on. -/
def lateValue (up there : Instant) (value : StoredResponse) : Timeline where
  reply now
    | .operate (.get _) =>
      if now < up then .error (.backend "down")
      else if now < there then .ok none
      else .ok (some ⟨value, 1000, [], false⟩)
    | .operate _ => .error (.backend "down")
    | .clock => now
    | .readTally => {}
    | .handle _ _ => default
    | .sleep _ | .count _ | .clearTally | .hold _ | .disarm _ => ()
  reply_clock _ := rfl

/-- The third look-up comes too early for the value, and the fourth one, at the deadline, finds it. -/
theorem await_polls_late :
    let run := (lateValue 60 110 default).run 7 (await "k" 120)
    run.asked.map (·.1) = [7, 57, 107, 127] ∧ run.asked.length ≤ (120 + 49) / 50 + 1 ∧ run.ended ≤ 127 ∧
      run.result.isSome = true := by
  obtain ⟨-, few, timely, found⟩ := await_polls (lateValue 60 110 default) "k" 7 120
  refine ⟨rfl, few, timely, found 110 (by decide) fun now since _ => ?_⟩
  have up : ¬ now < 60 := by omega
  have there : ¬ now < 110 := by omega
  simp [Timeline.value?, Timeline.lookup, get, Timeline.run, lateValue, up, there, Entry.unpack, Except.map]

end Service

end ResponseCache
