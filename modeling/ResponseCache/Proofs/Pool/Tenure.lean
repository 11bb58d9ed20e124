import ResponseCache.Proofs.Pool.Orderly
import ResponseCache.Proofs.Store.Locks

/-!
# How long a lock stays with whom it was given to

A lock that was not released by its token and has not outlived its timeout is the one that was taken last for its key
(`Store.History.lastAcquired`): while it lives no other attempt succeeds. In a chronicle every token is given by one
deed (`Chronicle.sole`), so what the token of a lock is used for tells whose lock it is. An attempt that fails meets
with a live lock that was given before (`Chronicle.refused`), and one that succeeds comes after the release of the lock
or when its timeout is over (`Chronicle.given_again`).
-/

namespace ResponseCache

open Http
open Program (Event)

namespace Store

/-- **A live lock is the latest**: since it was taken nobody else has taken the lock of its key, unless it was
released by its token or has outlived its timeout. -/
theorem History.lastAcquired {capacity : Nat} {e : Event} {key : String} {l : Lock} {earlier : List Event}
    (acquired : e.acquired? = some (key, l)) : ∀ {later : List Event} {s : Store},
    History capacity (later ++ e :: earlier) s → (tokens (later ++ e :: earlier)).length < 2 ^ 64 →
    (∀ d ∈ later, d.call ≠ .release key l.token) → latest (later ++ e :: earlier) < l.since + l.timeout →
    LastAcquired key l (later ++ e :: earlier) later
  | [], _, _, _, _, _ => .here acquired
  | d :: later, _, history, few, unreleased, live => by
    have shorter : (tokens (later ++ e :: earlier)).length ≤ (tokens (d :: later ++ e :: earlier)).length :=
      ((List.sublist_cons_self _ _).filterMap _).length_le
    cases history with
    | @event _ s now call history le =>
      have few := Nat.lt_of_le_of_lt shorter few
      have last := history.lastAcquired acquired few (fun d mem => unreleased d (List.mem_cons_of_mem _ mem))
        (Nat.lt_of_le_of_lt le live)
      refine .before (fun l' taken => ?_) last
      -- another acquisition would have found the lock free
      have free : Free (later ++ e :: earlier) key now := by
        by_contra held
        have locked := ((history.traced few).isLocked_iff le key).2 held
        cases call with
        | acquire key' timeout =>
          simp only [Store.call, Store.acquire] at taken
          split at taken
          · cases taken
          · next unlocked =>
            cases taken
            exact unlocked locked
        | _ => cases taken
      rcases free l later last with ⟨d', mem, release⟩ | due
      · exact unreleased d' (List.mem_cons_of_mem _ mem) release
      · exact absurd due (Nat.not_le_of_lt live)

/-- The latest acquisition stands where what happened since begins. -/
theorem LastAcquired.split {key : String} {l : Lock} {h since : List Event} (last : LastAcquired key l h since) :
    ∃ e earlier, h = since ++ e :: earlier ∧ e.acquired? = some (key, l) := by
  induction last with
  | here acquired => exact ⟨_, _, rfl, acquired⟩
  | before _ _ ih =>
    obtain ⟨e, earlier, rfl, acquired⟩ := ih
    exact ⟨e, earlier, rfl, acquired⟩

/-- A lock is given only when it is free by the history. -/
theorem Traced.free_of_acquire {h : List Event} {s : Store} {now : Instant} {key : String} {timeout : Millis}
    {token : Token} (traced : Traced h s) (le : latest h ≤ now) (got : (s.acquire now key timeout).1 = some token) :
    Free h key now := by
  by_contra held
  unfold Store.acquire at got
  rw [if_pos ((traced.isLocked_iff le key).2 held)] at got
  cases got

end Store

/-- A deed gave the lock of a key. -/
def Deed.Gives (key : String) (l : Lock) (d : Deed) : Prop :=
  ∃ s, d.event = ⟨l.since, s, .operate (.acquire key l.timeout), .ok (some l.token)⟩

/-- The operation is none by which entries come in, or locks are taken or given back. -/
def Operation.Housekeeping : Operation → Prop
  | set _ _ | acquire _ _ | release _ _ => False
  | get _ | delete _ | invalidateTag _ | clear | purge | stats | resetStats => True

section Chronicles

variable {S : Surroundings} {store : Store} {h : List Deed} {p : Pool} {key key' : String} {l l' : Lock} {d d' : Deed}

theorem calls_append (h h' : List Deed) : calls (h ++ h') = calls h ++ calls h' := List.filterMap_append

/-- A lock that was given counts as an acquisition in the history of the store. -/
theorem Chronicle.gives_call (chronicle : Chronicle S store h p) (mem : d ∈ h) (gives : d.Gives key l) :
    ∃ e, d.event.call? = some e ∧ e.acquired? = some (key, l) := by
  obtain ⟨after, before, rfl⟩ := List.mem_iff_append.1 mem
  obtain ⟨q, q', -, does, -⟩ := chronicle.split
  obtain ⟨token, since, timeout⟩ := l
  obtain ⟨s, event⟩ := gives
  obtain ⟨-, -, ⟨op, event', -⟩ | ⟨none, -⟩⟩ := does.effect
  · rw [event] at event'
    injection event' with now stores action reply
    injection action with action
    subst now stores action
    have got : some token = (q.store.acquire q.now key timeout).1 := Except.ok.inj (eq_of_heq reply)
    refine ⟨⟨q.now, .acquire key timeout, (q.store.acquire q.now key timeout).1⟩, by rw [event]; rfl, ?_⟩
    rw [← got]
    rfl
  · exact absurd ⟨_, _, _, event⟩ (none _)

/-- The token that a deed gave. -/
def Deed.token? (d : Deed) : Option Token := (d.event.call?.bind Store.Event.acquired?).map (·.2.token)

theorem tokens_calls (h : List Deed) : Store.tokens (calls h) = h.filterMap Deed.token? := by
  rw [Store.tokens, calls, List.filterMap_filterMap]
  exact congrArg (List.filterMap · h) (funext fun d => Option.map_bind.symm)

/-- **Every token is given once.** -/
theorem Chronicle.sole {capacity : Nat} (create : Store.create capacity = .ok store) (chronicle : Chronicle S store h p)
    (few : (Store.tokens (calls h)).length < 2 ^ 64) (mem : d ∈ h) (mem' : d' ∈ h) (gives : d.Gives key l)
    (gives' : d'.Gives key' l') (same : l.token = l'.token) : d = d' := by
  have nodup : (h.filterMap Deed.token?).Nodup := by
    rw [← tokens_calls]
    exact ((chronicle.history create).1.traced few).increasing.imp fun lt => (UInt64.ne_of_lt lt).symm
  have token : d.token? = some l.token := by
    obtain ⟨e, call, acquired⟩ := chronicle.gives_call mem gives
    rw [Deed.token?, call, Option.bind_some, acquired]
    rfl
  have token' : d'.token? = some l.token := by
    obtain ⟨e, call, acquired⟩ := chronicle.gives_call mem' gives'
    rw [Deed.token?, call, Option.bind_some, acquired, same]
    rfl
  obtain ⟨after, before, rfl⟩ := List.mem_iff_append.1 mem
  rw [List.filterMap_append, List.filterMap_cons_some token, List.nodup_append', List.nodup_cons] at nodup
  obtain ⟨-, ⟨once, -⟩, apart⟩ := nodup
  rcases List.mem_append.1 mem' with earlier | later
  · exact absurd List.mem_cons_self (apart (List.mem_filterMap.2 ⟨d', earlier, token'⟩))
  · rcases List.mem_cons.1 later with rfl | later
    · rfl
    · exact absurd (List.mem_filterMap.2 ⟨d', later, token'⟩) once

/-- A release in the history of the store is a deed. -/
theorem release_of_mem_calls {e : Store.Event} {token : Token} (mem : e ∈ calls h)
    (release : e.call = .release key token) :
    ∃ d ∈ h, d.event.Carried (.release key token) := by
  obtain ⟨⟨place, now, s, action, reply⟩, mem, call⟩ := List.mem_filterMap.1 mem
  refine ⟨_, mem, ?_⟩
  unfold Program.Event.call? at call
  split at call
  · next now s op result eq =>
    obtain ⟨c, is, rfl⟩ := Option.map_eq_some_iff.1 call
    cases release
    cases op with
    | release key' token' =>
      cases is
      exact ⟨now, s, result, eq⟩
    | _ => cases is
  · cases call

/-- **A live lock that was never released** is the latest of its key. -/
theorem Chronicle.lastAcquired {capacity : Nat} (create : Store.create capacity = .ok store)
    (chronicle : Chronicle S store h p) (few : (Store.tokens (calls h)).length < 2 ^ 64) (mem : d ∈ h)
    (gives : d.Gives key l) (unreleased : ∀ d ∈ h, ¬ d.event.Carried (.release key l.token))
    (live : p.now < l.since + l.timeout) : ∃ since, Store.LastAcquired key l (calls h) since := by
  obtain ⟨e, call, acquired⟩ := chronicle.gives_call mem gives
  obtain ⟨history, le⟩ := chronicle.history create
  obtain ⟨after, before, rfl⟩ := List.mem_iff_append.1 mem
  have split : calls (after ++ d :: before) = calls after ++ e :: calls before := by
    rw [calls_append, calls_cons_some call]
  rw [split] at history few le ⊢
  refine ⟨_, history.lastAcquired acquired few (fun e mem release => ?_) (Nat.lt_of_le_of_lt le live)⟩
  obtain ⟨d', mem', carried⟩ := release_of_mem_calls mem release
  exact unreleased d' (List.mem_append_left _ mem') carried

/-! ## Attempts that meet with a lock -/

/-- Fewer tokens were given before. -/
theorem few_of_sublist {before : List Deed} (sub : before.Sublist h)
    (few : (Store.tokens (calls h)).length < 2 ^ 64) : (Store.tokens (calls before)).length < 2 ^ 64 :=
  Nat.lt_of_le_of_lt ((sub.filterMap _).filterMap _).length_le few

/-- A lock that was taken in the history of the store was given by a deed. -/
theorem Chronicle.gives_of_mem_calls (chronicle : Chronicle S store h p) {e : Store.Event} (mem : e ∈ calls h)
    (acquired : e.acquired? = some (key, l)) : ∃ d ∈ h, d.Gives key l := by
  obtain ⟨d, mem, call⟩ := List.mem_filterMap.1 mem
  refine ⟨d, mem, ?_⟩
  obtain ⟨q, q', does⟩ := chronicle.does mem
  obtain ⟨-, -, ⟨op, event, -⟩ | ⟨none, -⟩⟩ := does.effect
  · rw [event] at call
    obtain ⟨c, is, rfl⟩ := Option.map_eq_some_iff.1 call
    cases op with
    | acquire key' timeout =>
      cases is
      cases got : (q.store.acquire q.now key' timeout).1 with
      | none => simp [Store.Event.acquired?, Store.call, got] at acquired
      | some token =>
        simp only [Store.Event.acquired?, Store.call, got, Option.some.injEq, Prod.mk.injEq] at acquired
        obtain ⟨rfl, rfl⟩ := acquired
        exact ⟨q.store, by rw [event, ← got]; rfl⟩
    | _ => cases is <;> cases acquired
  · rw [Program.Event.call?_of_not_carried none] at call
    cases call

/-- **Whoever is refused a lock** meets with one that was given before and lives. -/
theorem Chronicle.refused {capacity : Nat} (create : Store.create capacity = .ok store) {after before : List Deed}
    {place : Option Nat} {now : Instant} {s : Store} {timeout : Millis}
    (chronicle : Chronicle S store (after ++ ⟨place, ⟨now, s, .operate (.acquire key timeout), .ok none⟩⟩ :: before) p)
    (few : (Store.tokens (calls before)).length < 2 ^ 64) :
    ∃ d ∈ before, ∃ l, d.Gives key l ∧ l.since ≤ now ∧ now < l.since + l.timeout := by
  obtain ⟨q, q', led, does, -⟩ := chronicle.split
  obtain ⟨rfl, -, ⟨op, event, -⟩ | ⟨none, -⟩⟩ := does.effect
  · injection event with _ same action reply
    injection action with action
    subst same action
    have locked := Store.isLocked_of_acquire (Except.ok.inj (eq_of_heq reply)).symm
    obtain ⟨history, le⟩ := led.history create
    have held := ((history.traced few).isLocked_iff le key).1 locked
    simp only [Store.Free, not_forall, not_or] at held
    obtain ⟨l, since, last, -, live⟩ := held
    obtain ⟨e, earlier, split, acquired⟩ := last.split
    obtain ⟨d, mem, gives⟩ := led.gives_of_mem_calls (split ▸ List.mem_append_right _ List.mem_cons_self) acquired
    refine ⟨d, mem, l, gives, ?_, Nat.lt_of_not_le live⟩
    obtain ⟨_, event⟩ := gives
    have le := led.sorted.2 d mem
    rwa [event] at le
  · exact absurd ⟨_, _, _, rfl⟩ (none _)

/-- **A lock that is given again** was released by its token, or has outlived its timeout. -/
theorem Chronicle.given_again {capacity : Nat} (create : Store.create capacity = .ok store) {after before : List Deed}
    (chronicle : Chronicle S store (after ++ d' :: before) p)
    (few : (Store.tokens (calls (after ++ d' :: before))).length < 2 ^ 64) (mem : d ∈ before) (gives : d.Gives key l)
    (again : d'.Gives key l') :
    (∃ r ∈ before, r.event.Carried (.release key l.token)) ∨ l.since + l.timeout ≤ l'.since := by
  have few := few_of_sublist ((List.sublist_cons_self d' before).trans (List.sublist_append_right ..)) few
  obtain ⟨q, q', led, does, -⟩ := chronicle.split
  obtain ⟨s, event⟩ := again
  obtain ⟨-, -, ⟨op, event', -⟩ | ⟨none, -⟩⟩ := does.effect
  · rw [event] at event'
    injection event' with now same action reply
    injection action with action
    subst same action
    have got : some l'.token = (q.store.acquire q.now key l'.timeout).1 := Except.ok.inj (eq_of_heq reply)
    obtain ⟨history, le⟩ := led.history create
    have free := (history.traced few).free_of_acquire le got.symm
    rw [now]
    by_contra kept
    obtain ⟨unreleased, live⟩ := not_or.1 kept
    obtain ⟨since, last⟩ := led.lastAcquired create few mem gives
      (fun r mem carried => unreleased ⟨r, mem, carried⟩) (Nat.lt_of_not_le live)
    rcases free l since last with ⟨e, mem, release⟩ | due
    · obtain ⟨_, _, split, -⟩ := last.split
      obtain ⟨r, mem, carried⟩ := release_of_mem_calls (split ▸ List.mem_append_left _ mem) release
      exact unreleased ⟨r, mem, carried⟩
    · exact live due
  · exact absurd ⟨_, _, _, event⟩ (none _)

end Chronicles

end ResponseCache
