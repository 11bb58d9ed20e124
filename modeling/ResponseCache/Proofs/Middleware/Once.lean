import ResponseCache.Proofs.Middleware.Exclusion

/-!
# A response is computed once

Requests for one key that all wait compute its response once among them, as long as what is stored stays and holders of
the lock store in time, if no store falls between a look-up in vain and what the same request does next (`Gapless`). For
then nothing was stored before a request was given the lock (`Chronicle.started`), and whoever had the lock before had
stored by then (`Chronicle.not_given`). A request that waits for its whole timeout outlasts the lock that it met with,
so it sees what was stored. Nothing but that gap is in the way: the lock is given without another look-up, so a request
may be given it when the value that it has just missed is there.
-/

namespace ResponseCache

open Http
open Program (Event Heard)
open Conduct (Ran Misses)
open Procedure (runs writes Storable)

/-! ## The setting -/

/-- A deed stores a value under a key. -/
def Deed.Stores (key : String) (d : Deed) : Prop := ∃ e, d.event.Carried (.set key e)

/-- The requests are all for one key and wait for it with the same timeout. Their handlers give responses to be stored,
the store does not fail, and nobody else writes to it or locks it. -/
structure Surroundings.OneKey (S : Surroundings) (key : String) (timeout : Millis) : Prop where
  own : ∀ v, S.comes v → v.key? S.settings = some key
  waits : ∀ v, S.comes v → v.policy S.settings = .wait
  same : ∀ v, S.comes v → v.timeout S.settings = timeout
  handled : ∀ v, S.comes v → v.endpoint ≠ none
  storable : ∀ endpoint request r, S.answers endpoint request r → ∃ bytes, Storable S.settings r bytes
  sound : ∀ op, ¬ S.mayFail op
  others : ∀ op, S.others op → op.Housekeeping

/-- Whoever was given the lock a timeout ago has stored a value and released the lock before the timeout was over, no
lock was released for a request that was given up, and what was stored has been there and live ever since. -/
structure Undisturbed (key : String) (timeout : Millis) (h : List Deed) (now : Instant) : Prop where
  prompt : ∀ i e l, Deed.Gives key l ⟨some i, e⟩ → ⟨some i, e⟩ ∈ h → l.since + timeout ≤ now →
    (∃ d ∈ h, d.place = some i ∧ d.Stores key ∧ d.event.now < l.since + timeout) ∧
      ∃ d ∈ h, d.place = some i ∧ d.event.Carried (.release key l.token) ∧ d.event.now < l.since + timeout
  own : ∀ d ∈ h, ∀ token, d.event.Carried (.release key token) → d.place ≠ none
  lasting : h.Pairwise fun d' d => d.Stores key → ∃ e, d'.event.store.Holds key e ∧ d'.event.now < e.deadline

/-- What stays where it was stored has lasted, if nothing was stored before. -/
theorem lasting_of_stays {key : String} {after before : List Deed} {d : Deed}
    (stays : ∀ d' ∈ after, ∃ e, d'.event.store.Holds key e ∧ d'.event.now < e.deadline)
    (unset : ∀ d' ∈ before, ¬ d'.Stores key) : (after ++ d :: before).Pairwise fun d' d =>
      d.Stores key → ∃ e, d'.event.store.Holds key e ∧ d'.event.now < e.deadline := by
  refine List.pairwise_append.2 ⟨?_, List.pairwise_cons.2 ⟨?_, ?_⟩, ?_⟩
  · exact List.pairwise_of_forall_mem_list fun d' mem _ _ _ => stays d' mem
  · exact fun d' mem stores => absurd stores (unset d' mem)
  · exact List.pairwise_of_forall_mem_list fun _ _ d' mem stores => absurd stores (unset d' mem)
  · exact fun d' mem _ _ _ => stays d' mem

/-- No value is stored between a look-up that finds none and what the same request does next. -/
def Gapless (key : String) (h : List Deed) : Prop :=
  ∀ after d before, h = after ++ d :: before → d.Stores key → ∀ i e, (logOf i before).head? = some e → Misses key e →
    logOf i after = []

/-- The handler runs for a request, or has run. -/
def Task.Computes (t : Task) : Prop := t.InFlight ∨ Ran t.log

/-- Of two deeds one is the other or stands before it. -/
theorem eq_or_mem_of_split {after before after' before' : List Deed} {d d' : Deed}
    (eq : after ++ d :: before = after' ++ d' :: before') : d = d' ∨ d ∈ before' ∨ d' ∈ before := by
  rcases List.append_eq_append_iff.1 eq with ⟨mid, rfl, rest⟩ | ⟨mid, rfl, rest⟩ <;> cases mid with
  | nil =>
    injection rest with same
    simp [same]
  | cons _ mid =>
    injection rest with _ rest
    simp [rest]

namespace Procedure

variable {settings : Settings} {v : Visit} {log : List Event}

/-- An attempt to lock comes before every reading of the clock. -/
theorem attempt_le_clock (kept : Program.Kept (contract settings v) log) (timely : Program.Timely log)
    {now told start : Instant} {s s' : Store} {key : String} {timeout : Millis}
    {reply : Except CacheError (Option Token)}
    (tried : (⟨now, s, .operate (.acquire key timeout), reply⟩ : Event) ∈ log)
    (clock : (⟨start, s', .clock, told⟩ : Event) ∈ log) : now ≤ start := by
  obtain ⟨-, later, now', s₀, split⟩ := attempt_spec kept tried
  obtain ⟨later', earlier, split'⟩ := List.mem_iff_append.1 clock
  rcases List.suffix_or_suffix_of_suffix ⟨later, split.symm⟩ ⟨later', split'.symm⟩ with within | within
  · rw [split'] at timely
    exact timely.tail.le_latest (within.subset List.mem_cons_self)
  · -- there is but a look-up before the attempt
    have clock := within.subset List.mem_cons_self
    simp at clock

end Procedure

/-- A watch begins with a reading of the clock. -/
theorem Conduct.Watch.clock_mem {key : String} {timeout : Millis} {start : Instant} {watch : List Event}
    (watched : Watch key timeout start watch) : ∃ s, ⟨start, s, .clock, start⟩ ∈ watch := by
  induction watched with
  | start s => exact ⟨s, List.mem_singleton_self _⟩
  | again _ _ _ ih =>
    obtain ⟨s, mem⟩ := ih
    exact ⟨s, List.mem_cons_of_mem _ (List.mem_cons_of_mem _ (List.mem_cons_of_mem _ mem))⟩

section Runs

variable {S : Surroundings} {key : String} {timeout : Millis} (one : S.OneKey key timeout) {capacity : Nat}
  {store : Store} (create : Store.create capacity = .ok store) {h : List Deed} {p : Pool}
  (chronicle : Chronicle S store h p)

include one chronicle

/-- Nothing that a request asks of the store fails. -/
theorem Chronicle.carried {i : Nat} {now : Instant} {s : Store} {op : Operation} {reply : Except CacheError op.Result}
    (mem : ⟨some i, ⟨now, s, .operate op, reply⟩⟩ ∈ h) : reply = .ok (s.perform now op).1 := by
  obtain ⟨since, tally, store', tally', answered⟩ := chronicle.answered mem
  dsimp only at answered
  cases answered with
  | operate => rfl
  | fault e may => exact absurd may (one.sound op)

/-- Only requests are given locks, and all for the same time. -/
theorem Chronicle.gives_spec {d : Deed} (mem : d ∈ h) {l : Lock} (gives : d.Gives key l) :
    (∃ i, d.place = some i) ∧ l.timeout = timeout := by
  obtain ⟨place, e⟩ := d
  obtain ⟨s, rfl⟩ := gives
  obtain ⟨i, is⟩ := chronicle.requester mem ⟨_, _, _, rfl⟩ (one.others _) fun _ _ => nofun
  cases is
  obtain ⟨t, here, mem⟩ := chronicle.doer mem
  obtain ⟨comes, kept, -⟩ := Procedure.conforms chronicle.reach t (List.mem_of_getElem? here)
  exact ⟨⟨i, rfl⟩, (Procedure.attempt_spec kept mem).1.trans (one.same _ comes)⟩

/-- **Whoever releases the lock** has stored a value before. -/
theorem Chronicle.stored_of_released {r : Deed} (mem : r ∈ h) {token : Token}
    (released : r.event.Carried (.release key token)) (own : r.place ≠ none) : ∃ d ∈ h, d.Stores key := by
  obtain ⟨place, e⟩ := r
  obtain ⟨k, rfl⟩ := Option.ne_none_iff_exists'.1 own
  obtain ⟨now, s, result, rfl⟩ := released
  obtain ⟨u, there, heard⟩ := chronicle.doer mem
  obtain ⟨comes, kept, -⟩ := Procedure.conforms chronicle.reach u (List.mem_of_getElem? there)
  -- the guard was given up when everything else was done
  obtain ⟨rest, part, held, ran, complete, kept⟩ := Procedure.disarmed_of_released kept heard
  have took : Heard (.hold ⟨key, token⟩) () rest :=
    Program.heard_of_mem_heldBy (held ▸ List.mem_singleton_self (⟨key, token⟩ : Guard))
  obtain ⟨_, _, acquired⟩ := Procedure.acquired_of_hold kept took
  have storing : Procedure.Storing S.settings u.visit rest := .inl ⟨token, List.mem_filterMap.2 ⟨_, acquired, rfl⟩⟩
  obtain ⟨response, ran⟩ := List.exists_mem_of_ne_nil _ (ran.resolve_left (one.handled _ comes))
  obtain ⟨endpoint, request, _, _, handled⟩ := Procedure.mem_runs.1 ran
  obtain ⟨_, _, _, _, answered⟩ := chronicle.answered (chronicle.deed there (part.subset handled))
  have answers : S.answers endpoint request response := by
    cases answered with
    | handle answers => exact answers
  have wrote := complete.2 ⟨storing, response, ran, one.storable _ _ _ answers⟩
  obtain ⟨⟨key', e, reply⟩, wrote⟩ := List.exists_mem_of_ne_nil _ wrote
  obtain ⟨now', s', wrote⟩ := Procedure.mem_writes.1 wrote
  obtain ⟨_, _, -, ⟨own, -⟩, -⟩ := kept.of_mem wrote
  cases own.symm.trans (one.own _ comes)
  have deed := chronicle.deed there (part.subset wrote)
  exact ⟨_, deed, e, _, _, _, congrArg _ (chronicle.carried one deed)⟩

/-- Who computes has a cause: it was given the lock, or it has found it held and waited in vain. -/
theorem Chronicle.cause (create : Store.create capacity = .ok store) {t : Task} (mem : t ∈ p.tasks)
    (computes : t.Computes) :
    (∃ token, Heard (.operate (.acquire key timeout)) (.ok (some token)) t.log) ∨
      (Faith.LockHeld key timeout t.log ∧ Conduct.WaitedInVain key timeout t.log) := by
  have conforms := chronicle.conduct one.others create t mem
  have kept := conforms.kept
  have timely := (chronicle.reach.orderly t mem).timely
  have own := one.own _ conforms.comes
  have same := one.same _ conforms.comes
  have cause : Conduct.Cause S.settings t.visit key t.log := by
    rcases computes with inFlight | ⟨endpoint, request, response, now, s, handled⟩
    · obtain ⟨-, -, cause⟩ := inFlight.demanded conforms
      exact cause key own timely
    · obtain ⟨later, earlier, split, seeks | ⟨-, -, cause⟩, -⟩ := kept.of_mem handled
      · exact seeks.elim
      · rw [split] at timely ⊢
        exact (cause key own timely.tail.2).mono (List.suffix_append_of_suffix (List.suffix_cons ..))
  cases cause with
  | locked token acquired => exact .inl ⟨token, same ▸ acquired⟩
  | waited _ held vain => exact .inr ⟨same ▸ held, same ▸ vain⟩
  | bypassed policy => cases (one.waits _ conforms.comes).symm.trans policy
  | lookupFailed reason heard =>
    obtain ⟨now, s, failed⟩ := heard
    exact absurd ((kept.grants failed).failed rfl) (one.sound _)
  | acquireFailed reason heard =>
    obtain ⟨now, s, failed⟩ := heard
    exact absurd ((kept.grants failed).failed rfl) (one.sound _)

section Stays

variable (undisturbed : Undisturbed key timeout h p.now)
include undisturbed

/-- **Nothing was stored** before what a request does right after a look-up in vain. -/
theorem Chronicle.unset (gapless : Gapless key h) {i : Nat} {t : Task} (here : p.tasks[i]? = some t)
    {later earlier : List Event} {e e' : Event} (split : t.log = later ++ e' :: e :: earlier) (misses : Misses key e) :
    ∃ after before, h = after ++ ⟨some i, e'⟩ :: before ∧ ∀ d ∈ before, ¬ d.Stores key := by
  obtain ⟨after, rest, rfl, -, part⟩ := exists_of_logOf ((chronicle.log here).symm.trans split)
  refine ⟨after, rest, rfl, fun d mem stores => ?_⟩
  obtain ⟨mid, before, rfl, none, -⟩ := exists_of_logOf (show logOf i rest = [] ++ e :: earlier from part)
  rcases List.mem_append.1 mem with mem | mem
  · -- a store in between
    obtain ⟨mid', mid'', rfl⟩ := List.mem_iff_append.1 mem
    have idle : logOf i mid'' = [] := by
      have sub : mid''.Sublist (mid' ++ d :: mid'') :=
        (List.sublist_cons_self d mid'').trans (List.sublist_append_right ..)
      exact List.sublist_nil.1 (none ▸ sub.filterMap _)
    have idle' := gapless (after ++ ⟨some i, e'⟩ :: mid') d (mid'' ++ ⟨some i, e⟩ :: before) (by simp) stores i e
      (by rw [logOf_append, idle, logOf_cons_self]; rfl) misses
    rw [logOf_append, logOf_cons_self] at idle'
    simp at idle'
  · rcases List.mem_cons.1 mem with rfl | mem
    · obtain ⟨entry, now, s, result, rfl⟩ := stores
      obtain ⟨_, looked, -⟩ := misses
      cases looked
    · -- what was stored before would have been found
      have part : ⟨some i, e⟩ :: before <:+ after ++ ⟨some i, e'⟩ :: (mid ++ ⟨some i, e⟩ :: before) :=
        ⟨after ++ ⟨some i, e'⟩ :: mid, by simp⟩
      obtain ⟨entry, holds, live⟩ := (List.pairwise_cons.1 (undisturbed.lasting.sublist part.sublist)).1 d mem stores
      have looked := part.subset List.mem_cons_self
      obtain ⟨result, found, nothing⟩ := misses
      cases found with
      | found unpacked => exact nothing _ rfl
      | missing now s =>
        have reply := chronicle.carried one looked
        rw [Store.perform, Store.get_of_live holds live] at reply
        cases reply
      | failed now s reason => cases chronicle.carried one looked

variable (few : (Store.tokens (calls h)).length < 2 ^ 64)
include create few

/-- **Until a value is stored** a lock that was given lives, and is not given again. -/
theorem Chronicle.not_given {after before : List Deed} {d' : Deed} (split : h = after ++ d' :: before)
    (unset : ∀ d ∈ before, ¬ d.Stores key) {d : Deed} (mem : d ∈ before) {l : Lock} (gives : d.Gives key l) :
    d'.event.now < l.since + timeout ∧ ∀ l', ¬ d'.Gives key l' := by
  subst split
  have mem' : d ∈ after ++ d' :: before := List.mem_append_right _ (.tail _ mem)
  obtain ⟨⟨i, place⟩, same⟩ := chronicle.gives_spec one mem' gives
  have early : d'.event.now < l.since + timeout := by
    refine Nat.lt_of_not_le fun late => ?_
    have le := chronicle.sorted.2 d' (List.mem_append_right _ List.mem_cons_self)
    obtain ⟨j, e⟩ := d
    cases place
    obtain ⟨⟨w, mem'', -, stores, soon⟩, -⟩ := undisturbed.prompt i e l gives mem' (Nat.le_trans late le)
    exact unset w (chronicle.earlier mem'' (Nat.lt_of_lt_of_le soon late)) stores
  refine ⟨early, fun l' again => ?_⟩
  rcases chronicle.given_again create few mem gives again with ⟨r, mem, released⟩ | due
  · obtain ⟨q, q', led, -, -⟩ := chronicle.split
    have own := undisturbed.own r (List.mem_append_right _ (.tail _ mem)) _ released
    obtain ⟨d, mem, stores⟩ := led.stored_of_released one mem released own
    exact unset d mem stores
  · obtain ⟨s, event⟩ := again
    rw [event] at early
    exact absurd (same ▸ due) (Nat.not_le_of_lt early)

/-- **Nobody waits in vain**: who waits outlasts the lock that it met with, and finds what its holder stored. -/
theorem Chronicle.not_vain (gapless : Gapless key h) {i : Nat} {t : Task} (here : p.tasks[i]? = some t)
    (held : Faith.LockHeld key timeout t.log) : ¬ Conduct.WaitedInVain key timeout t.log := by
  rintro ⟨start, now, s, looked, watch, watched, misses, late, later, earlier, split⟩
  have split : t.log = later ++ ⟨now, s, .clock, now⟩ :: looked :: (watch ++ earlier) := by rw [← split]; simp
  have mem := List.mem_of_getElem? here
  have kept := (Procedure.conforms chronicle.reach t mem).kept
  have timely := (chronicle.reach.orderly t mem).timely
  obtain ⟨refusal, s', refused, -⟩ := held
  obtain ⟨s₀, clock⟩ := watched.clock_mem
  have clock : (⟨start, s₀, .clock, start⟩ : Event) ∈ t.log := by rw [split]; simp [clock]
  have le := Procedure.attempt_le_clock kept timely refused clock
  -- the lock that it met with
  obtain ⟨after', before', eq'⟩ := List.mem_iff_append.1 (chronicle.deed here refused)
  have fewer : (Store.tokens (calls before')).length < 2 ^ 64 := few_of_sublist (by rw [eq']; simp) few
  obtain ⟨d, mem', l, gives, since, live⟩ := (eq' ▸ chronicle).refused create fewer
  have mem' : d ∈ h := eq' ▸ List.mem_append_right _ (.tail _ mem')
  obtain ⟨-, same⟩ := chronicle.gives_spec one mem' gives
  rw [same] at live
  have outlasts : l.since + timeout ≤ now :=
    calc l.since + timeout ≤ start + timeout := Nat.add_le_add_right (Nat.le_trans since le) timeout
      _ ≤ now := late
  have earlier : d.event.now < now := by
    obtain ⟨_, event⟩ := gives
    rw [event]
    exact Nat.lt_of_le_of_lt since (Nat.lt_of_lt_of_le live outlasts)
  -- by the last look its holder has stored a value
  obtain ⟨after, before, eq, unset⟩ := chronicle.unset one undisturbed gapless here split misses
  have mem' : d ∈ before := (eq ▸ chronicle).earlier (eq ▸ mem') earlier
  obtain ⟨early, -⟩ := chronicle.not_given one create undisturbed few eq unset mem' gives
  exact absurd outlasts (Nat.not_le_of_lt early)

/-- **Who computes** was given the lock when nothing had been stored. -/
theorem Chronicle.started (gapless : Gapless key h) {i : Nat} {t : Task} (here : p.tasks[i]? = some t)
    (computes : t.Computes) : ∃ since s token after before,
      h = after ++ ⟨some i, ⟨since, s, .operate (.acquire key timeout), .ok (some token)⟩⟩ :: before ∧
        ∀ d ∈ before, ¬ d.Stores key := by
  have mem := List.mem_of_getElem? here
  have kept := (Procedure.conforms chronicle.reach t mem).kept
  rcases chronicle.cause one create mem computes with ⟨token, since, s, acquired⟩ | ⟨held, vain⟩
  · obtain ⟨-, later, now, s', split⟩ := Procedure.attempt_spec kept acquired
    obtain ⟨after, before, eq, unset⟩ := chronicle.unset one undisturbed gapless here split ⟨_, .missing now s', nofun⟩
    exact ⟨since, s, token, after, before, eq, unset⟩
  · exact absurd vain (chronicle.not_vain one create undisturbed few gapless here held)

end Stays

/-- Who stores a value has run a handler. -/
theorem Chronicle.computes_of_stores (create : Store.create capacity = .ok store) {d : Deed} (mem : d ∈ h)
    (stores : d.Stores key) : ∃ (i : Nat) (t : Task), p.tasks[i]? = some t ∧ Ran t.log := by
  obtain ⟨place, e⟩ := d
  obtain ⟨entry, carried⟩ := stores
  obtain ⟨i, is⟩ := chronicle.requester mem carried (one.others _) fun _ _ => nofun
  cases is
  obtain ⟨now, s, result, rfl⟩ := carried
  obtain ⟨t, here, wrote⟩ := chronicle.doer mem
  have kept := (chronicle.conduct one.others create t (List.mem_of_getElem? here)).kept
  obtain ⟨later, earlier, split, seeks | ⟨-, endpoint, request, r, bytes, read, -, heard, -⟩, -⟩ := kept.of_mem wrote
  · exact seeks.elim
  · refine ⟨i, t, here, endpoint, request, r, heard.mono ?_⟩
    rw [split]
    exact fun e mem => List.mem_append_right _ (.tail _ mem)

end Runs

/-- **A response is computed once.**

Let requests for one key come and go in any way over a store that is empty at first and does not fail, all waiting for
the same time, while nobody else writes entries, takes locks or releases them. Let their handlers give responses to be
stored, let holders of the lock store and release it before its timeout, let what is stored stay there and live, and
let fewer than 2 ^ 64 locks have been taken. If no store falls between a look-up in vain and what the same request does
next, then the handler runs for one request at most, and for that one once. That request was given the lock when
nothing was stored, and while its handler runs nothing is. -/
theorem computed_once {S : Surroundings} {key : String} {timeout : Millis} (one : S.OneKey key timeout) {capacity : Nat}
    {store : Store} (create : Store.create capacity = .ok store) {h : List Deed} {p : Pool}
    (chronicle : Chronicle S store h p) (few : (Store.tokens (calls h)).length < 2 ^ 64)
    (undisturbed : Undisturbed key timeout h p.now) (gapless : Gapless key h) :
    (∀ (i j : Nat) (t u : Task), p.tasks[i]? = some t → p.tasks[j]? = some u → t.Computes → u.Computes → i = j) ∧
    ∀ t ∈ p.tasks, t.Computes →
      (runs t.log).length ≤ 1 ∧
      (t.InFlight → runs t.log = [] ∧ ∀ e, ¬ p.store.Holds key e) ∧
      ∃ since s token, (⟨since, s, .operate (.acquire key timeout), .ok (some token)⟩ : Event) ∈ t.log ∧
        ∀ e, ¬ s.Holds key e := by
  have started : ∀ {i : Nat} {t : Task}, p.tasks[i]? = some t → t.Computes → _ := fun here computes =>
    chronicle.started one create undisturbed few gapless here computes
  have alone : ∀ (i j : Nat) (t u : Task), p.tasks[i]? = some t → p.tasks[j]? = some u → t.Computes → u.Computes →
      i = j := by
    intro i j t u here there computes computes'
    obtain ⟨since, s, token, after, before, split, unset⟩ := started here computes
    obtain ⟨since', s', token', after', before', split', unset'⟩ := started there computes'
    have gives : Deed.Gives key ⟨token, since, timeout⟩ ⟨some i, _⟩ := ⟨s, rfl⟩
    have gives' : Deed.Gives key ⟨token', since', timeout⟩ ⟨some j, _⟩ := ⟨s', rfl⟩
    rcases eq_or_mem_of_split (split.symm.trans split') with same | mem | mem
    · injection same with place
      exact Option.some.inj place
    · exact absurd gives' ((chronicle.not_given one create undisturbed few split' unset' mem gives).2 _)
    · exact absurd gives ((chronicle.not_given one create undisturbed few split unset mem gives').2 _)
  refine ⟨alone, fun t mem computes => ?_⟩
  obtain ⟨i, here⟩ := List.mem_iff_getElem?.1 mem
  have conforms := Procedure.conforms chronicle.reach t mem
  refine ⟨Procedure.length_runs_le conforms.kept, fun inFlight => ?_, ?_⟩
  · obtain ⟨endpoint, request, resume, next⟩ := inFlight
    obtain ⟨⟨-, -, idle, -⟩, -⟩ := conforms.meets _ next
    refine ⟨idle, fun e holds => ?_⟩
    -- who has stored a value would have run its handler
    obtain ⟨after, d, before, split, carried, -⟩ := chronicle.written create holds
    obtain ⟨j, u, there, ran⟩ := chronicle.computes_of_stores one create
      (split ▸ List.mem_append_right _ List.mem_cons_self) ⟨e, carried⟩
    cases alone i j t u here there computes (.inr ran)
    cases here.symm.trans there
    obtain ⟨endpoint, request, r, handled⟩ := ran
    have mem := Procedure.mem_runs.2 ⟨endpoint, request, handled⟩
    rw [idle] at mem
    cases mem
  · obtain ⟨since, s, token, after, before, split, unset⟩ := started here computes
    refine ⟨since, s, token, ?_, fun e holds => ?_⟩
    · rw [chronicle.log here, mem_logOf, split]
      exact List.mem_append_right _ List.mem_cons_self
    · obtain ⟨q, q', led, does, -⟩ := (split ▸ chronicle).split
      obtain ⟨-, -, ⟨op, event, -⟩ | ⟨none, -⟩⟩ := does.effect
      · injection event with _ same
        obtain ⟨after, d, before, rfl, carried, -⟩ := led.written create (same ▸ holds)
        exact unset d (List.mem_append_right _ List.mem_cons_self) ⟨e, carried⟩
      · exact absurd ⟨_, _, _, rfl⟩ (none _)

/-- A second request finds what the first one stored, when the timeout of the first one's lock is over. -/
theorem computed_once_second : ∃ (S : Surroundings) (store : Store) (h : List Deed) (p : Pool) (t u : Task) (e : Entry),
    S.OneKey "k" 5 ∧ Chronicle S store h p ∧ Undisturbed "k" 5 h p.now ∧ Gapless "k" h ∧
      p.tasks[0]? = some t ∧ p.tasks[1]? = some u ∧ Ran t.log ∧ p.store.Holds "k" e ∧ ¬ u.Computes := by
  let answer : Response := ⟨203, .empty, .empty⟩
  let rule : RouteRule :=
    { key := { override := some (.literal "k") }, compress := false, lockTimeout := some 5, ttl := some 20 }
  let v : Visit := ⟨rule, "/", [], some 0, ⟨"GET", { path := "/" }, .empty, .empty⟩⟩
  let S : Surroundings :=
    { settings := { enableStats := false }
      comes := (· = v)
      answers := fun _ _ r => r = answer
      others := fun _ => False
      mayFail := fun _ => False
      mayDrop := fun _ => False }
  have one : S.OneKey "k" 5 :=
    { own := by rintro _ rfl; rfl
      waits := by rintro _ rfl; rfl
      same := by rintro _ rfl; rfl
      handled := by rintro _ rfl; exact nofun
      storable := by rintro _ _ _ rfl; exact ⟨.empty, rfl, rfl, by decide⟩
      sound := fun _ => id
      others := fun _ no => no.elim }
  -- the stores along the run
  let empty (misses : UInt64) (locks : Std.TreeMap String Lock) (token : Token) : Store :=
    ⟨⟨∅, ∅, 0, 1, { misses := misses }, by decide⟩, ∅, locks, token⟩
  let locks : Std.TreeMap String Lock := (∅ : Std.TreeMap String Lock).insert "k" ⟨1, 0, 5⟩
  let entry : Entry := ⟨⟨203, none, .empty⟩, 20, [], false⟩
  let full : Store := (empty 1 locks 1).set "k" entry
  have missed : Answered S 0 0 (empty 0 ∅ 0) {} (.operate (.get "k")) (.ok none) (empty 1 ∅ 0) {} := .operate _
  have locked : Answered S 0 0 (empty 1 ∅ 0) {} (.operate (.acquire "k" 5)) (.ok (some 1)) (empty 1 locks 1) {} :=
    .operate (.acquire "k" 5)
  have handled : S.answers 0 v.request answer := rfl
  have wrote : Answered S 0 0 (empty 1 locks 1) {} (.operate (.set "k" entry)) (.ok ()) full {} := .operate _
  have released : Answered S 0 0 full {} (.operate (.release "k" 1)) (.ok ()) (full.release "k" 1).2 {} := .operate _
  have found : Answered S 10 10 (full.release "k" 1).2 {} (.operate (.get "k")) (.ok (some entry))
    ((full.release "k" 1).2.get 10 "k").2 {} := .operate _
  have run := (show Chronicle S (empty 0 ∅ 0) [] _ from .start).step (.arrive _ (v := v) rfl)
    |>.step (.turn (i := 0) rfl rfl missed) |>.step (.turn (i := 0) rfl rfl locked)
    |>.step (.turn (i := 0) rfl rfl (.hold _)) |>.step (.turn (i := 0) rfl rfl (.handle handled))
    |>.step (.turn (i := 0) rfl rfl .clock) |>.step (.turn (i := 0) rfl rfl wrote)
    |>.step (.turn (i := 0) rfl rfl (.disarm _)) |>.step (.turn (i := 0) rfl rfl released)
    |>.step (.pass _ 10) |>.step (.arrive _ (v := v) rfl) |>.step (.turn (i := 1) rfl rfl found)
  let before : List Deed := [⟨some 0, ⟨0, empty 1 locks 1, .clock, (0 : Instant)⟩⟩,
    ⟨some 0, ⟨0, empty 1 locks 1, .handle 0 v.request, answer⟩⟩, ⟨some 0, ⟨0, empty 1 locks 1, .hold ⟨"k", 1⟩, ()⟩⟩,
    ⟨some 0, ⟨0, empty 1 ∅ 0, .operate (.acquire "k" 5), .ok (some 1)⟩⟩,
    ⟨some 0, ⟨0, empty 0 ∅ 0, .operate (.get "k"), .ok none⟩⟩]
  let stored : Deed := ⟨some 0, ⟨0, empty 1 locks 1, .operate (.set "k" entry), .ok ()⟩⟩
  let after : List Deed := [⟨some 1, ⟨10, (full.release "k" 1).2, .operate (.get "k"), .ok (some entry)⟩⟩,
    ⟨some 0, ⟨0, full, .operate (.release "k" 1), .ok ()⟩⟩, ⟨some 0, ⟨0, full, .disarm ⟨"k", 1⟩, ()⟩⟩]
  obtain ⟨p, t, u, chronicle, now, here, there, holds⟩ : ∃ (p : Pool) (t u : Task),
      Chronicle S (empty 0 ∅ 0) (after ++ stored :: before) p ∧ p.now = 10 ∧ p.tasks[0]? = some t ∧
        p.tasks[1]? = some u ∧ p.store.Holds "k" entry :=
    ⟨_, _, _, run, rfl, rfl, rfl, rfl⟩
  have stores : stored.Stores "k" := ⟨entry, _, _, _, rfl⟩
  have unset : ∀ d ∈ before, ¬ d.Stores "k" := by
    simp [before, Deed.Stores, Program.Event.Carried]
  have unset' : ∀ d ∈ after, ¬ d.Stores "k" := by
    simp [after, Deed.Stores, Program.Event.Carried]
  have undisturbed : Undisturbed "k" 5 (after ++ stored :: before) p.now := by
    refine ⟨?_, ?_, ?_⟩
    · rintro i e l ⟨s, rfl⟩ mem late
      have acquired : i = 0 ∧ l.since = 0 ∧ s = empty 1 ∅ 0 ∧ l.timeout = 5 ∧ l.token = 1 := by
        simpa [after, stored, before] using mem
      obtain ⟨rfl, since, -, -, token⟩ := acquired
      rw [since, token]
      exact ⟨⟨stored, by simp, rfl, stores, (by decide : 0 < 0 + 5)⟩,
        ⟨some 0, ⟨0, full, .operate (.release "k" 1), .ok ()⟩⟩, by simp [after], rfl, ⟨_, _, _, rfl⟩,
        (by decide : 0 < 0 + 5)⟩
    · simp [after, stored, before]
    · refine lasting_of_stays (fun d mem => ?_) unset
      simp only [after, List.mem_cons, List.not_mem_nil, or_false] at mem
      rcases mem with rfl | rfl | rfl
      · exact ⟨entry, rfl, (by decide : 10 < 20)⟩
      · exact ⟨entry, rfl, (by decide : 0 < 20)⟩
      · exact ⟨entry, rfl, (by decide : 0 < 20)⟩
  have gapless : Gapless "k" (after ++ stored :: before) := by
    intro later d earlier split stores' i e last misses
    obtain ⟨rfl, rfl, rfl⟩ := (List.append_cons_inj_of_notMem (fun mem => unset' d mem stores')
      (fun mem => unset d mem stores')).1 split
    by_cases first : i = 0
    · subst first
      cases last
      obtain ⟨_, looked, -⟩ := misses
      cases looked
    · simp [before, logOf, Ne.symm first] at last
  have ran : Ran t.log :=
    ⟨0, v.request, answer, 0, empty 1 locks 1, chronicle.log here ▸ mem_logOf.2 (by simp [before])⟩
  obtain ⟨alone, -⟩ := computed_once one (show Store.create 1 = .ok (empty 0 ∅ 0) from rfl) chronicle (by decide)
    undisturbed gapless
  refine ⟨S, _, _, p, t, u, entry, one, chronicle, undisturbed, gapless, here, there, ran, holds, fun computes => ?_⟩
  exact absurd (alone 0 1 t u here there (.inr ran) computes) (by decide)

/-- A request is given the lock although the value that it has just missed is stored, and computes it once more. -/
theorem computed_again_in_gap : ∃ (S : Surroundings) (store : Store) (h : List Deed) (p : Pool) (t u : Task)
    (e : Entry), S.OneKey "k" 5000 ∧ Store.create 1 = .ok store ∧ Chronicle S store h p ∧
      (Store.tokens (calls h)).length < 2 ^ 64 ∧ Undisturbed "k" 5000 h p.now ∧ p.tasks[0]? = some t ∧
      p.tasks[1]? = some u ∧ Ran u.log ∧ t.InFlight ∧ p.store.Holds "k" e ∧ p.now < e.deadline := by
  let answer : Response := ⟨203, .empty, .empty⟩
  let rule : RouteRule := { key := { override := some (.literal "k") }, compress := false, ttl := some 20 }
  let v : Visit := ⟨rule, "/", [], some 0, ⟨"GET", { path := "/" }, .empty, .empty⟩⟩
  let S : Surroundings :=
    { settings := { enableStats := false }
      comes := (· = v)
      answers := fun _ _ r => r = answer
      others := fun _ => False
      mayFail := fun _ => False
      mayDrop := fun _ => False }
  have one : S.OneKey "k" 5000 :=
    { own := by rintro _ rfl; rfl
      waits := by rintro _ rfl; rfl
      same := by rintro _ rfl; rfl
      handled := by rintro _ rfl; exact nofun
      storable := by rintro _ _ _ rfl; exact ⟨.empty, rfl, rfl, by decide⟩
      sound := fun _ => id
      others := fun _ no => no.elim }
  -- the stores along the run
  let empty (misses : UInt64) (locks : Std.TreeMap String Lock) (token : Token) : Store :=
    ⟨⟨∅, ∅, 0, 1, { misses := misses }, by decide⟩, ∅, locks, token⟩
  let locks : Std.TreeMap String Lock := (∅ : Std.TreeMap String Lock).insert "k" ⟨1, 0, 5000⟩
  let entry : Entry := ⟨⟨203, none, .empty⟩, 20, [], false⟩
  let full : Store := (empty 2 locks 1).set "k" entry
  let free : Store := (full.release "k" 1).2
  have missed (n : UInt64) : Answered S 0 0 (empty n ∅ 0) {} (.operate (.get "k")) (.ok none) (empty (n + 1) ∅ 0) {} :=
    .operate _
  have locked : Answered S 0 0 (empty 2 ∅ 0) {} (.operate (.acquire "k" 5000)) (.ok (some 1)) (empty 2 locks 1) {} :=
    .operate (.acquire "k" 5000)
  have handled : S.answers 0 v.request answer := rfl
  have wrote : Answered S 0 0 (empty 2 locks 1) {} (.operate (.set "k" entry)) (.ok ()) full {} := .operate _
  have released : Answered S 0 0 full {} (.operate (.release "k" 1)) (.ok ()) free {} := .operate _
  have again : Answered S 0 0 free {} (.operate (.acquire "k" 5000)) (.ok (some 2)) (free.acquire 0 "k" 5000).2 {} :=
    .operate (.acquire "k" 5000)
  have run := (show Chronicle S (empty 0 ∅ 0) [] _ from .start).step (.arrive _ (v := v) rfl)
    |>.step (.arrive _ (v := v) rfl) |>.step (.turn (i := 0) rfl rfl (missed 0))
    |>.step (.turn (i := 1) rfl rfl (missed 1)) |>.step (.turn (i := 1) rfl rfl locked)
    |>.step (.turn (i := 1) rfl rfl (.hold _)) |>.step (.turn (i := 1) rfl rfl (.handle handled))
    |>.step (.turn (i := 1) rfl rfl .clock) |>.step (.turn (i := 1) rfl rfl wrote)
    |>.step (.turn (i := 1) rfl rfl (.disarm _)) |>.step (.turn (i := 1) rfl rfl released)
    |>.step (.turn (i := 0) rfl rfl again) |>.step (.turn (i := 0) rfl rfl (.hold _))
  let before : List Deed := [⟨some 1, ⟨0, empty 2 locks 1, .clock, (0 : Instant)⟩⟩,
    ⟨some 1, ⟨0, empty 2 locks 1, .handle 0 v.request, answer⟩⟩, ⟨some 1, ⟨0, empty 2 locks 1, .hold ⟨"k", 1⟩, ()⟩⟩,
    ⟨some 1, ⟨0, empty 2 ∅ 0, .operate (.acquire "k" 5000), .ok (some 1)⟩⟩,
    ⟨some 1, ⟨0, empty 1 ∅ 0, .operate (.get "k"), .ok none⟩⟩,
    ⟨some 0, ⟨0, empty 0 ∅ 0, .operate (.get "k"), .ok none⟩⟩]
  let stored : Deed := ⟨some 1, ⟨0, empty 2 locks 1, .operate (.set "k" entry), .ok ()⟩⟩
  let after : List Deed := [⟨some 0, ⟨0, (free.acquire 0 "k" 5000).2, .hold ⟨"k", 2⟩, ()⟩⟩,
    ⟨some 0, ⟨0, free, .operate (.acquire "k" 5000), .ok (some 2)⟩⟩,
    ⟨some 1, ⟨0, full, .operate (.release "k" 1), .ok ()⟩⟩, ⟨some 1, ⟨0, full, .disarm ⟨"k", 1⟩, ()⟩⟩]
  obtain ⟨p, t, u, chronicle, now, here, there, inFlight, holds⟩ : ∃ (p : Pool) (t u : Task),
      Chronicle S (empty 0 ∅ 0) (after ++ stored :: before) p ∧ p.now = 0 ∧ p.tasks[0]? = some t ∧
        p.tasks[1]? = some u ∧ t.InFlight ∧ p.store.Holds "k" entry :=
    ⟨_, _, _, run, rfl, rfl, rfl, ⟨_, _, _, rfl⟩, rfl⟩
  have unset : ∀ d ∈ before, ¬ d.Stores "k" := by
    simp [before, Deed.Stores, Program.Event.Carried]
  have undisturbed : Undisturbed "k" 5000 (after ++ stored :: before) p.now := by
    refine ⟨?_, ?_, ?_⟩
    · -- no timeout is over yet
      intro i e l gives mem late
      rw [now] at late
      exact absurd late (Nat.not_le_of_lt (Nat.add_pos_right _ (by decide)))
    · simp [after, stored, before]
    · refine lasting_of_stays (fun d mem => ?_) unset
      simp only [after, List.mem_cons, List.not_mem_nil, or_false] at mem
      rcases mem with rfl | rfl | rfl | rfl <;> exact ⟨entry, rfl, (by decide : 0 < 20)⟩
  have ran : Ran u.log :=
    ⟨0, v.request, answer, 0, empty 2 locks 1, chronicle.log there ▸ mem_logOf.2 (by simp [before])⟩
  exact ⟨S, empty 0 ∅ 0, _, p, t, u, entry, one, rfl, chronicle, by decide, undisturbed, here, there, ran, inFlight,
    holds, now ▸ (by decide : 0 < 20)⟩

end ResponseCache
