import ResponseCache.Proofs.Middleware.Conduct
import ResponseCache.Proofs.Pool.Tenure

/-!
# One computation at a time for each key

While a handler runs for a request, the request has done nothing but look for a value (`Task.InFlight.seeks`), so a
lock that it took has not been given back by itself, and nobody else has its token (`Chronicle.unreleased`). Such a
lock is the latest of its key as long as it lives, and there is one latest lock only (`one_holder`). A request whose
handler runs without a live lock has a cause for that (`Conduct.Cause`). Together these are the law of
`one_computation_at_a_time`.
-/

namespace ResponseCache

open Http
open Program (Event Heard)
open Conduct

/-- A handler is running for the request. -/
def Task.InFlight (t : Task) : Prop :=
  ∃ endpoint request resume, t.next = some (.perform (.handle endpoint request) resume)

/-- The request holds the lock of a key, which it took at an instant. -/
def Task.HoldsLock (S : Surroundings) (t : Task) (key : String) (since : Instant) : Prop :=
  ∃ token s, (⟨key, token⟩ : Guard) ∈ t.held ∧
    (⟨since, s, .operate (.acquire key (t.visit.timeout S.settings)), .ok (some token)⟩ : Event) ∈ t.log

/-- The request holds the lock of a key, which it took less than its lock timeout ago. -/
def Task.HoldsLive (S : Surroundings) (t : Task) (key : String) (now : Instant) : Prop :=
  ∃ since, t.HoldsLock S key since ∧ now < since + t.visit.timeout S.settings

section InFlight

variable {S : Surroundings} {t : Task}

theorem Task.InFlight.not_over (inFlight : t.InFlight) : ¬ t.Over := fun gone =>
  let ⟨_, _, _, next⟩ := inFlight
  gone _ _ next

variable (conforms : t.Conforms S (contract S t.visit) (Promise S)) (inFlight : t.InFlight)
include conforms inFlight

/-- What is demanded of a request that runs a handler. -/
theorem Task.InFlight.demanded : (∃ endpoint, t.visit.endpoint = some endpoint) ∧ ¬ Ran t.log ∧
    ∀ key, t.visit.key? S.settings = some key → Program.Timely t.log → Cause S.settings t.visit key t.log := by
  obtain ⟨endpoint, request, resume, next⟩ := inFlight
  obtain ⟨seeks | ⟨has, idle, cause⟩, -⟩ := conforms.meets _ next
  · exact seeks.elim
  · exact ⟨⟨endpoint, has⟩, idle, cause⟩

/-- **Until a handler has answered** a request has only looked for a value. -/
theorem Task.InFlight.seeks {e : Event} (mem : e ∈ t.log) : ∃ earlier, Seeks S t.visit earlier e.action := by
  obtain ⟨⟨endpoint, has⟩, idle, -⟩ := inFlight.demanded conforms
  obtain ⟨later, earlier, split⟩ := List.mem_iff_append.1 mem
  have before : ¬ Ran earlier := fun ran => idle (ran.mono (by rw [split]; simp))
  obtain ⟨now, s, action, reply⟩ := e
  refine ⟨earlier, ((split ▸ conforms.kept).split.1).resolve_right fun computes => ?_⟩
  cases action with
  | handle endpoint request => exact idle ⟨endpoint, request, reply, now, s, mem⟩
  | disarm g => exact computes.elim (fun none => nomatch has.symm.trans none) before
  | operate op =>
    cases op with
    | set key entry =>
      obtain ⟨-, endpoint, request, response, -, -, -, heard, -⟩ := computes
      exact before ⟨endpoint, request, response, heard⟩
    | release key token => exact computes.2.1.elim (fun none => nomatch has.symm.trans none) before
    | _ => exact computes
  | _ => exact computes

/-- A request that runs a handler for its key holds a live lock, or has another reason. -/
theorem Task.InFlight.reason {now : Instant} (orderly : t.Orderly now) {key : String}
    (own : t.visit.key? S.settings = some key) :
    t.HoldsLive S key now ∨ (∃ since, t.HoldsLock S key since ∧ since + t.visit.timeout S.settings ≤ now) ∨
      (t.visit.policy S.settings = .wait ∧ Faith.LockHeld key (t.visit.timeout S.settings) t.log ∧
        WaitedInVain key (t.visit.timeout S.settings) t.log) ∨
      (t.visit.policy S.settings = .bypass ∧ Faith.LockHeld key (t.visit.timeout S.settings) t.log) ∨
      ∃ reason, Heard (.operate (.get key)) (.error reason) t.log ∨
        Heard (.operate (.acquire key (t.visit.timeout S.settings))) (.error reason) t.log := by
  obtain ⟨-, -, cause⟩ := inFlight.demanded conforms
  cases cause key own orderly.timely with
  | locked token acquired took =>
    have held : (⟨key, token⟩ : Guard) ∈ t.held := by
      rw [orderly.held.resolve_left inFlight.not_over]
      refine Program.mem_heldBy took fun e mem eq => ?_
      obtain ⟨earlier, seeks⟩ := inFlight.seeks conforms mem
      rw [eq] at seeks
      exact seeks
    obtain ⟨since, s, mem⟩ := acquired
    have holds : t.HoldsLock S key since := ⟨token, s, held, mem⟩
    rcases Nat.lt_or_ge now (since + t.visit.timeout S.settings) with live | late
    · exact .inl ⟨since, holds, live⟩
    · exact .inr (.inl ⟨since, holds, late⟩)
  | waited policy held vain => exact .inr (.inr (.inl ⟨policy, held, vain⟩))
  | bypassed policy held => exact .inr (.inr (.inr (.inl ⟨policy, held⟩)))
  | lookupFailed reason heard => exact .inr (.inr (.inr (.inr ⟨reason, .inl heard⟩)))
  | acquireFailed reason heard => exact .inr (.inr (.inr (.inr ⟨reason, .inr heard⟩)))

end InFlight

section Locks

variable {S : Surroundings} (others : ∀ op, S.others op → op.Housekeeping) {capacity : Nat} {store : Store}
  (create : Store.create capacity = .ok store) {h : List Deed} {p : Pool} (chronicle : Chronicle S store h p)
  (few : (Store.tokens (calls h)).length < 2 ^ 64)

include others create chronicle in
theorem Chronicle.conduct : ∀ t ∈ p.tasks, t.Conforms S (contract S t.visit) (Promise S) :=
  chronicle.reach.conduct (fun op other key e eq => by subst eq; exact others _ other) create

include create chronicle few

/-- Who took a guard on was given its lock. -/
theorem Chronicle.taker {j : Nat} {u : Task} (there : p.tasks[j]? = some u) {g : Guard}
    (took : Heard (.hold g) () u.log) {d : Deed} (mem : d ∈ h) {key : String} {l : Lock} (gives : d.Gives key l)
    (same : l.token = g.token) : d.place = some j := by
  obtain ⟨since, s, acquired⟩ :=
    Procedure.acquired_of_hold (Procedure.conforms chronicle.reach u (List.mem_of_getElem? there)).kept took
  have gives' : Deed.Gives g.key ⟨g.token, since, u.visit.timeout S.settings⟩ ⟨some j, _⟩ := ⟨s, rfl⟩
  rw [chronicle.sole create few mem (chronicle.deed there acquired) gives gives' same]

include others

/-- **The lock of a request that runs a handler** has not been released. -/
theorem Chronicle.unreleased {i : Nat} {t : Task} (here : p.tasks[i]? = some t) (inFlight : t.InFlight) {key : String}
    {l : Lock} {e : Event} (mem : e ∈ t.log) (gives : Deed.Gives key l ⟨some i, e⟩) :
    ∀ d ∈ h, ¬ d.event.Carried (.release key l.token) := by
  rintro ⟨place, e'⟩ mem' carried
  -- whoever took the guard is the request itself
  have taker : ∀ {j : Nat} {u : Task}, p.tasks[j]? = some u → Heard (.hold ⟨key, l.token⟩) () u.log → u = t := by
    intro j u there took
    cases chronicle.taker create few there took (chronicle.deed here mem) gives rfl
    exact Option.some.inj (there.symm.trans here)
  cases place with
  | none =>
    obtain ⟨after, before, split⟩ := List.mem_iff_append.1 mem'
    obtain ⟨q, q', led, does, rest⟩ := (split ▸ chronicle).split
    rcases does.nobody carried with other | ⟨g, owed, eq⟩
    · exact others _ other
    · injection eq with same token
      obtain ⟨k, u, there, gone, took⟩ := led.reach.owed_taken g owed
      obtain ⟨u', there', goes⟩ := Pool.continues (rest.head does.step) there
      cases taker there' (by rw [same, token]; exact took.mono goes.log.subset)
      exact inFlight.not_over (goes.gone gone)
  | some j =>
    obtain ⟨u, there, heard⟩ := chronicle.doer mem'
    obtain ⟨now, s, result, rfl⟩ := carried
    obtain ⟨later, earlier, split⟩ := List.mem_iff_append.1 heard
    have conforms := chronicle.conduct others create u (List.mem_of_getElem? there)
    obtain ⟨seeks | ⟨-, -, took⟩, -⟩ := (split ▸ conforms.kept).split
    · exact seeks
    · cases taker there (took.mono (by rw [split]; simp))
      obtain ⟨_, seeks⟩ := inFlight.seeks conforms heard
      exact seeks

/-- **There is one holder** of a live lock at most among the requests that run a handler. -/
theorem one_holder {key : String} {i j : Nat} {t u : Task} (here : p.tasks[i]? = some t) (there : p.tasks[j]? = some u)
    (inFlight : t.InFlight) (inFlight' : u.InFlight) (live : t.HoldsLive S key p.now)
    (live' : u.HoldsLive S key p.now) : i = j := by
  obtain ⟨since, ⟨token, s, -, mem⟩, early⟩ := live
  obtain ⟨since', ⟨token', s', -, mem'⟩, early'⟩ := live'
  have gives : Deed.Gives key ⟨token, since, t.visit.timeout S.settings⟩ ⟨some i, _⟩ := ⟨s, rfl⟩
  have gives' : Deed.Gives key ⟨token', since', u.visit.timeout S.settings⟩ ⟨some j, _⟩ := ⟨s', rfl⟩
  have deed := chronicle.deed here mem
  have deed' := chronicle.deed there mem'
  obtain ⟨_, last⟩ := chronicle.lastAcquired create few deed gives
    (chronicle.unreleased others create few here inFlight mem gives) early
  obtain ⟨_, last'⟩ := chronicle.lastAcquired create few deed' gives'
    (chronicle.unreleased others create few there inFlight' mem' gives') early'
  have same := congrArg Lock.token (last.unique last').1
  injection chronicle.sole create few deed deed' gives gives' same with place
  exact Option.some.inj place

end Locks

/-- **One computation at a time for each key.** Let requests come and go in any way over a store that is empty at
first, while nobody else writes entries, takes locks or releases them, and let fewer than 2 ^ 64 locks have been
taken. Among the requests that run a handler for a key, one at most holds its lock and took it less than its lock
timeout ago. Every other one holds a lock that has outlived its timeout, or found the lock held and, by its policy,
waited for its whole timeout without seeing a value or did not wait at all, or the store failed its look-up or its
attempt to lock. So if the store never fails, every policy is to refuse, and no lock has outlived its timeout, one
handler at most runs for a key. -/
theorem one_computation_at_a_time {S : Surroundings} (others : ∀ op, S.others op → op.Housekeeping) {capacity : Nat}
    {store : Store} (create : Store.create capacity = .ok store) {h : List Deed} {p : Pool}
    (chronicle : Chronicle S store h p) (few : (Store.tokens (calls h)).length < 2 ^ 64) (key : String) :
    (∀ (i j : Nat) (t u : Task), p.tasks[i]? = some t → p.tasks[j]? = some u → t.InFlight → u.InFlight →
      t.HoldsLive S key p.now → u.HoldsLive S key p.now → i = j) ∧
    (∀ t ∈ p.tasks, t.InFlight → t.visit.key? S.settings = some key → ¬ t.HoldsLive S key p.now →
      (∃ since, t.HoldsLock S key since ∧ since + t.visit.timeout S.settings ≤ p.now) ∨
      (t.visit.policy S.settings = .wait ∧ Faith.LockHeld key (t.visit.timeout S.settings) t.log ∧
        WaitedInVain key (t.visit.timeout S.settings) t.log) ∨
      (t.visit.policy S.settings = .bypass ∧ Faith.LockHeld key (t.visit.timeout S.settings) t.log) ∨
      ∃ reason, Heard (.operate (.get key)) (.error reason) t.log ∨
        Heard (.operate (.acquire key (t.visit.timeout S.settings))) (.error reason) t.log) ∧
    ((∀ op, ¬ S.mayFail op) → (∀ t ∈ p.tasks, t.visit.policy S.settings = .fail) →
      (∀ t ∈ p.tasks, ∀ since, t.InFlight → t.HoldsLock S key since → p.now < since + t.visit.timeout S.settings) →
      ∀ (i j : Nat) (t u : Task), p.tasks[i]? = some t → p.tasks[j]? = some u → t.InFlight → u.InFlight →
        t.visit.key? S.settings = some key → u.visit.key? S.settings = some key → i = j) := by
  have conduct := chronicle.conduct others create
  have reason : ∀ t ∈ p.tasks, t.InFlight → t.visit.key? S.settings = some key → _ := fun t mem inFlight own =>
    inFlight.reason (conduct t mem) (chronicle.reach.orderly t mem) own
  refine ⟨fun i j t u here there inFlight inFlight' live live' =>
      one_holder others create chronicle few here there inFlight inFlight' live live',
    fun t mem inFlight own dead => (reason t mem inFlight own).resolve_left dead, ?_⟩
  intro sound policies prompt i j t u here there inFlight inFlight' own own'
  have live : ∀ t ∈ p.tasks, t.InFlight → t.visit.key? S.settings = some key → t.HoldsLive S key p.now := by
    intro t mem inFlight own
    have kept := (conduct t mem).kept
    rcases reason t mem inFlight own with live | ⟨since, holds, late⟩ | ⟨policy, -⟩ | ⟨policy, -⟩ | ⟨reason, heard⟩
    · exact live
    · exact absurd late (Nat.not_le_of_lt (prompt t mem since inFlight holds))
    · cases (policies t mem).symm.trans policy
    · cases (policies t mem).symm.trans policy
    · rcases heard with ⟨now, s, mem⟩ | ⟨now, s, mem⟩
      · exact absurd ((kept.grants mem).failed rfl) (sound _)
      · exact absurd ((kept.grants mem).failed rfl) (sound _)
  exact one_holder others create chronicle few here there inFlight inFlight'
    (live t (List.mem_of_getElem? here) inFlight own) (live u (List.mem_of_getElem? there) inFlight' own')

/-- While one request computes under the lock, a second one that does not wait computes beside it. -/
theorem one_computation_at_a_time_bypass : ∃ (S : Surroundings) (store : Store) (h : List Deed) (p : Pool) (t u : Task),
    Chronicle S store h p ∧ p.tasks[0]? = some t ∧ p.tasks[1]? = some u ∧ t.InFlight ∧ u.InFlight ∧
      t.HoldsLive S "k" p.now ∧ ¬ u.HoldsLive S "k" p.now ∧ Faith.LockHeld "k" 5000 u.log := by
  let v : Visit := ⟨{ key := { override := some (.literal "k") }, contention := some .bypass }, "/", [], some 0,
    ⟨"GET", { path := "/" }, .empty, .empty⟩⟩
  let S : Surroundings :=
    { settings := { enableStats := false }
      comes := (· = v)
      answers := fun _ _ _ => True
      others := fun _ => False
      mayFail := fun _ => False
      mayDrop := fun _ => False }
  -- the stores along the run
  let store (misses : UInt64) (locks : Std.TreeMap String Lock) (token : Token) : Store :=
    ⟨⟨∅, ∅, 0, 1, { misses := misses }, by decide⟩, ∅, locks, token⟩
  let locks : Std.TreeMap String Lock := (∅ : Std.TreeMap String Lock).insert "k" ⟨1, 0, 5000⟩
  have missed (n : UInt64) (locks : Std.TreeMap String Lock) (token : Token) : Answered S 0 0 (store n locks token) {}
      (.operate (.get "k")) (.ok none) (store (n + 1) locks token) {} := .operate _
  have locked : Answered S 0 0 (store 1 ∅ 0) {} (.operate (.acquire "k" 5000)) (.ok (some 1)) (store 1 locks 1) {} :=
    .operate (.acquire "k" 5000)
  have contended : Answered S 0 0 (store 2 locks 1) {} (.operate (.acquire "k" 5000)) (.ok none) (store 2 locks 1) {} :=
    .operate (.acquire "k" 5000)
  have run := (show Chronicle S (store 0 ∅ 0) [] _ from .start).step (.arrive _ (v := v) rfl)
    |>.step (.turn (i := 0) rfl rfl (missed 0 ∅ 0)) |>.step (.turn (i := 0) rfl rfl locked)
    |>.step (.turn (i := 0) rfl rfl (.hold _)) |>.step (.arrive _ (v := v) rfl)
    |>.step (.turn (i := 1) rfl rfl (missed 1 locks 1)) |>.step (.turn (i := 1) rfl rfl contended)
  obtain ⟨h, p, chronicle, few, ⟨t, here, inFlight, holds⟩, u, there, inFlight', visit, held, sound⟩ :
      ∃ h p, Chronicle S (store 0 ∅ 0) h p ∧ (Store.tokens (calls h)).length < 2 ^ 64 ∧
        (∃ t, p.tasks[0]? = some t ∧ t.InFlight ∧ t.HoldsLive S "k" p.now) ∧
        ∃ u, p.tasks[1]? = some u ∧ u.InFlight ∧ u.visit = v ∧ u.held = [] ∧
          ∀ op reason, ¬ Heard (.operate op) (.error reason) u.log := by
    refine ⟨_, _, run, by decide, ⟨_, rfl, ⟨_, _, _, rfl⟩, 0, ⟨1, store 1 ∅ 0, List.mem_cons_self,
      List.mem_cons_of_mem _ List.mem_cons_self⟩, (by decide : 0 < 0 + 5000)⟩, _, rfl, ⟨_, _, _, rfl⟩, rfl, rfl, ?_⟩
    rintro op reason ⟨now, s, _ | ⟨_, _ | ⟨_, mem⟩⟩⟩
    cases mem
  obtain ⟨one, reasons, -⟩ := one_computation_at_a_time (S := S) (fun _ no => no.elim)
    (show Store.create 1 = .ok (store 0 ∅ 0) from rfl) chronicle few "k"
  have dead : ¬ u.HoldsLive S "k" p.now := fun live =>
    absurd (one 0 1 t u here there inFlight inFlight' holds live) (by decide)
  refine ⟨S, store 0 ∅ 0, h, p, t, u, chronicle, here, there, inFlight, inFlight', holds, dead, ?_⟩
  rcases reasons u (List.mem_of_getElem? there) inFlight' (visit ▸ rfl) dead with
    ⟨_, ⟨_, _, mem, -⟩, -⟩ | ⟨policy, -⟩ | ⟨-, locked⟩ | ⟨_, failed | failed⟩
  · rw [held] at mem
    cases mem
  · rw [visit] at policy
    cases policy
  · rw [visit] at locked
    exact locked
  · exact absurd failed (sound _ _)
  · exact absurd failed (sound _ _)

end ResponseCache
