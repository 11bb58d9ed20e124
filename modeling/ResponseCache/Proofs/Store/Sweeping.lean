import Mathlib.Data.List.Dedup
import Mathlib.Data.List.Perm.Subperm
import ResponseCache.Proofs.Store.Retention

/-!
# Sweeps go unnoticed

A sweep removes what nobody can see any more: entries past their deadline and locks past their timeout. So a run with
sweeps put in anywhere answers its look-ups, its acquisitions and its questions about locks as the run without them
does, and counts the same, as long as no write ever evicts anything (`sweeps_unnoticed`).

What can be seen of a store at an instant are its live entries in order of touches (`Ledger.live`), its live locks
(`liveLock`), its counters and the latest token. Every call makes of that something that depends on nothing else, so two
stores that show the same (`Alike`) go on to show the same, whatever else they hold (`Alike.call`), and give the same
answers (`Alike.answer`). A sweep of one of them is not seen (`Alike.cleanup`), and neither is the passing of time
(`Alike.later`). Only an eviction tells them apart, for what is dead takes up room, and the store that keeps it is full
earlier. With room for all keys that are ever written to (`Roomy`) there is none.
-/

namespace ResponseCache.Store

open Std (TreeMap)

/-! ## Runs -/

/-- Carries out calls at their instants, one after the other, and tells what happened. -/
def run (s : Store) : List (Instant × Call) → List Event × Store
  | [] => ([], s)
  | (now, call) :: calls =>
    let (result, s) := s.call now call
    let (events, s) := s.run calls
    (⟨now, call, result⟩ :: events, s)

theorem run_cons (s : Store) (now : Instant) (call : Call) (calls : List (Instant × Call)) :
    s.run ((now, call) :: calls) = (⟨now, call, (s.call now call).1⟩ :: ((s.call now call).2.run calls).1,
      ((s.call now call).2.run calls).2) := rfl

def Call.isSweep : Call → Bool
  | cleanup => true
  | _ => false

/-- The key that a call writes to. -/
def Call.written? : Call → Option String
  | set key _ => some key
  | _ => none

/-- A look-up, an acquisition, or a question about a lock. -/
def Call.asks : Call → Bool
  | get _ | acquire _ _ | isLocked _ => true
  | _ => false

/-! ## What is live -/

/-- The entries that are not expired, in the same order. -/
def Ledger.live (r : Ledger) (now : Instant) : List (String × Entry) := r.entries.filter fun p => !p.2.isExpired now

/-- The lock of a key, unless it is abandoned. -/
def liveLock (s : Store) (now : Instant) (key : String) : Option Lock :=
  (s.locks[key]?).filter fun l => !l.isAbandoned now

section Locks

variable {s t : Store} {now later : Instant} {key key' : String}

theorem SameLocks.liveLock_eq (same : SameLocks s t) (now : Instant) (key : String) :
    t.liveLock now key = s.liveLock now key := by
  rw [liveLock, same.locks, liveLock]

/-- What is live later is live before. -/
theorem liveLock_later (le : now ≤ later) (s : Store) (key : String) :
    s.liveLock later key = (s.liveLock now key).filter fun l => !l.isAbandoned later := by
  simp only [liveLock, Option.filter_filter]
  congr 1
  funext l
  simp only [Lock.isAbandoned]
  by_cases dead : l.timeout ≤ now - l.since
  · have : l.timeout ≤ later - l.since := Nat.le_trans dead (Nat.sub_le_sub_right le _)
    simp [dead, this]
  · simp [dead]

theorem isLocked_eq (s : Store) (now : Instant) (key : String) :
    s.isLocked now key = (s.liveLock now key).isSome := by
  unfold isLocked liveLock
  cases s.locks[key]? with
  | none => rfl
  | some l => cases dead : l.isAbandoned now <;> simp [dead]

/-- **An acquisition** is answered by the live lock of its key and by the tokens given so far, and nothing else. -/
theorem acquire_eq (s : Store) (now : Instant) (key : String) (timeout : Millis) :
    s.acquire now key timeout = if (s.liveLock now key).isSome then (none, s) else (some (s.lastToken + 1),
      { s with lastToken := s.lastToken + 1, locks := s.locks.insert key ⟨s.lastToken + 1, now, timeout⟩ }) := by
  rw [acquire, isLocked_eq]

theorem liveLock_insert (s : Store) (now : Instant) (key key' : String) (l : Lock) :
    { s with lastToken := l.token, locks := s.locks.insert key l }.liveLock now key' =
      if key = key' then (some l).filter fun l => !l.isAbandoned now else s.liveLock now key' := by
  unfold liveLock
  dsimp only
  rw [TreeMap.getElem?_insert]
  by_cases same : key = key'
  · rw [if_pos (Std.compare_eq_iff_eq.2 same), if_pos same]
  · rw [if_neg fun eq => same (Std.compare_eq_iff_eq.1 eq), if_neg same]

/-- **A release** takes the lock of its key away if its token holds it, dead or alive. -/
theorem liveLock_release (s : Store) (now : Instant) (key key' : String) (token : Token) :
    (s.release key token).2.liveLock now key' =
      (s.liveLock now key').filter fun l => !(key = key' ∧ l.token = token) := by
  have taken : (s.release key token).2.locks[key']? =
      s.locks[key']?.filter fun l => !(key = key' ∧ l.token = token) := by
    by_cases same : key = key'
    · subst same
      unfold release
      cases here : s.locks[key]? with
      | none => simp [here]
      | some l =>
        rw [Option.filter_some]
        by_cases holds : l.token = token
        · simp [holds]
        · simp [holds, here]
    · have other : (s.locks.erase key)[key']? = s.locks[key']? := by
        rw [TreeMap.getElem?_erase, if_neg fun eq => same (Std.compare_eq_iff_eq.1 eq)]
      have whole : s.locks[key']?.filter (fun l => !(key = key' ∧ l.token = token)) = s.locks[key']? := by
        cases s.locks[key']? <;> simp [same]
      rw [whole]
      unfold release
      split
      · split
        · exact other
        · rfl
      · rfl
  unfold liveLock
  rw [taken, Option.filter_filter, Option.filter_filter]
  congr 1
  funext l
  exact Bool.and_comm _ _

theorem lastToken_release (s : Store) (key : String) (token : Token) :
    (s.release key token).2.lastToken = s.lastToken := by
  unfold release
  split
  · split <;> rfl
  · rfl

theorem liveLock_cleanup (s : Store) (now : Instant) (key : String) :
    (s.cleanup now).2.liveLock now key = s.liveLock now key := by
  unfold liveLock
  rw [locks_cleanup, TreeMap.getElem?_filter', Option.filter_filter]
  congr 1
  funext l
  simp

end Locks

section Entries

variable {s : Store} {r : Ledger} {now later : Instant} {key : String} {e : Entry}

namespace Ledger

theorem live_later (le : now ≤ later) (r : Ledger) :
    r.live later = (r.live now).filter fun p => !p.2.isExpired later := by
  simp only [live, List.filter_filter]
  apply List.filter_congr
  rintro ⟨_, e⟩ -
  simp only [Entry.isExpired]
  by_cases dead : e.deadline ≤ now
  · have : e.deadline ≤ later := Nat.le_trans dead le
    simp [dead, this]
  · simp [dead]

theorem live_keep (r : Ledger) (now : Instant) (p : String × Entry → Bool) :
    (r.keep p).live now = (r.live now).filter p := by
  simp only [live, keep, List.filter_filter, Bool.and_comm]

theorem live_erase (r : Ledger) (now : Instant) (key : String) :
    Ledger.live (r.erase key) now = (r.live now).filter (·.1 != key) := r.live_keep now (·.1 != key)

theorem live_touch (r : Ledger) (now : Instant) (key : String) (e : Entry) :
    Ledger.live (r.touch key e) now =
      (r.live now).filter (·.1 != key) ++ [(key, e)].filter fun p => !p.2.isExpired now := by
  rw [← live_erase]
  exact List.filter_append ..

end Ledger

namespace Accounts

variable (accounts : Accounts [] s r)
include accounts

theorem mem_expire : (key, e) ∈ (r.expire now key).entries ↔ (key, e) ∈ r.live now := by
  unfold Ledger.expire Ledger.live
  rw [List.mem_filter]
  split
  · next e' found =>
    have here := accounts.find?_eq_some_iff.1 found
    split
    · next expired =>
      constructor
      · intro mem
        exact absurd rfl (bne_iff_ne.1 (List.mem_filter.1 mem).2)
      · rintro ⟨mem, live⟩
        rw [accounts.value_unique mem here, expired] at live
        cases live
    · next live =>
      refine ⟨fun mem => ⟨mem, ?_⟩, And.left⟩
      rw [accounts.value_unique mem here]
      simpa using live
  · next none => exact iff_of_false (accounts.absent none e) fun mem => accounts.absent none e mem.1

/-- **What a look-up finds** is the live entry of its key. -/
theorem find?_expire (now : Instant) (key : String) : (r.expire now key).find? key = (r.live now).lookup key := by
  have nodup : ((r.live now).map (·.1)).Nodup := accounts.nodup.sublist (List.filter_sublist.map _)
  ext e
  rw [(accounts.expire now key).find?_eq_some_iff, accounts.mem_expire, Lru.lookup_eq_some_iff nodup]

/-- What a look-up removes was not live. -/
theorem live_expire (now : Instant) (key : String) : (r.expire now key).live now = r.live now := by
  rcases r.expire_cases now key with eq | eq
  · rw [eq]
  · rw [eq, Ledger.live_erase]
    apply List.filter_eq_self.2
    rintro ⟨key', e⟩ mem
    apply bne_iff_ne.2
    rintro rfl
    rw [← accounts.mem_expire, eq] at mem
    exact absurd rfl (bne_iff_ne.1 (List.mem_filter.1 mem).2)

end Accounts

end Entries

/-! ## Room for all keys -/

/-- A store with room for all keys that are ever written to it, and for the touches to come. -/
structure Roomy (keys : List String) (coming : Nat) (s : Store) (r : Ledger) : Prop where
  accounts : Accounts [] s r
  within : ∀ p ∈ r.entries, p.1 ∈ keys
  capacity_le : keys.length ≤ r.capacity
  room : r.touches + coming < 2 ^ 64

namespace Roomy

variable {keys : List String} {coming : Nat} {s : Store} {r : Ledger} {now : Instant}

/-- **No write evicts.** -/
theorem insert_eq (roomy : Roomy keys coming s r) {key : String} (mem : key ∈ keys) (e : Entry) :
    (r.insert key e).2 = r.touch key e := by
  have pos := roomy.accounts.sound.capacity_pos
  rcases r.insert_cases pos key e with ⟨-, eq⟩ | ⟨-, -, eq⟩ | ⟨p, rest, absent, full, -, -⟩
  · rw [eq]
  · rw [eq]
  · exfalso
    have nodup : (key :: r.entries.map (·.1)).Nodup := by
      refine List.nodup_cons.2 ⟨fun there => ?_, roomy.accounts.nodup⟩
      obtain ⟨⟨_, old⟩, here, rfl⟩ := List.mem_map.1 there
      exact roomy.accounts.absent absent old here
    have sub : key :: r.entries.map (·.1) ⊆ keys := by
      refine List.cons_subset.2 ⟨mem, fun key' there => ?_⟩
      obtain ⟨p, here, rfl⟩ := List.mem_map.1 there
      exact roomy.within p here
    have le := (List.subperm_of_subset nodup sub).length_le
    rw [List.length_cons, List.length_map] at le
    have := roomy.capacity_le
    omega

theorem cleanup (roomy : Roomy keys coming s r) (now : Instant) :
    Roomy keys coming (s.cleanup now).2 (r.after now .cleanup) where
  accounts := roomy.accounts.cleanup now
  within p mem := roomy.within p (List.mem_of_mem_filter mem)
  capacity_le := roomy.capacity_le
  room := roomy.room

/-- A call uses up one of the touches to come at most. -/
theorem call (roomy : Roomy keys (coming + 1) s r) (now : Instant) (call : Call)
    (written : ∀ key, call.written? = some key → key ∈ keys) :
    Roomy keys coming (s.call now call).2 (r.after now call) := by
  have room := roomy.room
  have after := roomy.accounts.call now call (by omega)
  refine ⟨after, ?_, ?_, ?_⟩
  · rintro ⟨key, e⟩ mem
    rcases call_stands roomy.accounts.covered (after.holds_iff.2 mem) with rfl | ⟨before, -⟩
    · exact written key rfl
    · exact roomy.within _ (roomy.accounts.holds_iff.1 before)
  · rw [Ledger.capacity_after]
    exact roomy.capacity_le
  · have := r.touches_after_le now call
    omega

end Roomy

/-! ## Stores that look alike -/

/-- Two stores with the same to see at an instant. -/
structure Alike (now : Instant) (s t : Store) (r q : Ledger) : Prop where
  live : q.live now = r.live now
  hits : q.hits = r.hits
  misses : q.misses = r.misses
  evictions : q.evictions = r.evictions
  liveLock : ∀ key, t.liveLock now key = s.liveLock now key
  lastToken : t.lastToken = s.lastToken

namespace Alike

variable {now : Instant} {s t s' t' : Store} {r q : Ledger} {keys : List String} {coming : Nat}

theorem refl (now : Instant) (s : Store) (r : Ledger) : Alike now s s r r := ⟨rfl, rfl, rfl, rfl, fun _ => rfl, rfl⟩

section Same

variable (alike : Alike now s t r q)
include alike

theorem symm : Alike now t s q r where
  live := alike.live.symm
  hits := alike.hits.symm
  misses := alike.misses.symm
  evictions := alike.evictions.symm
  liveLock key := (alike.liveLock key).symm
  lastToken := alike.lastToken.symm

/-- **The passing of time** is the same for both. -/
theorem later {later : Instant} (le : now ≤ later) : Alike later s t r q where
  live := by rw [q.live_later le, alike.live, r.live_later le]
  hits := alike.hits
  misses := alike.misses
  evictions := alike.evictions
  liveLock key := by rw [liveLock_later le, alike.liveLock, liveLock_later le]
  lastToken := alike.lastToken

/-- **A sweep** of one of them is not seen. -/
theorem cleanup : Alike now s (t.cleanup now).2 r (q.after now .cleanup) where
  live := by
    rw [Ledger.after, Ledger.live_keep, alike.live, ← Ledger.live_later (Nat.le_refl now)]
  hits := alike.hits
  misses := alike.misses
  evictions := alike.evictions
  liveLock key := by rw [liveLock_cleanup, alike.liveLock]
  lastToken := by rw [lastToken_cleanup, alike.lastToken]

/-- The entries and the counters, when the locks stay. -/
theorem of_sameLocks {r' q' : Ledger} (locks : SameLocks s s') (locks' : SameLocks t t')
    (live : q'.live now = r'.live now) (hits : q'.hits = r'.hits) (misses : q'.misses = r'.misses)
    (evictions : q'.evictions = r'.evictions) : Alike now s' t' r' q' where
  live := live
  hits := hits
  misses := misses
  evictions := evictions
  liveLock key := by rw [locks'.liveLock_eq, alike.liveLock, locks.liveLock_eq]
  lastToken := by rw [locks'.lastToken, alike.lastToken, locks.lastToken]

theorem isLocked (key : String) : t.isLocked now key = s.isLocked now key := by
  rw [isLocked_eq, alike.liveLock, isLocked_eq]

/-- **A write**, for which there is room in both. -/
theorem set {key : String} (roomy : Roomy keys coming s r) (roomy' : Roomy keys coming t q) (mem : key ∈ keys)
    (e : Entry) : Alike now (s.set key e) (t.set key e) (r.insert key e).2 (q.insert key e).2 := by
  rw [roomy.insert_eq mem, roomy'.insert_eq mem]
  apply alike.of_sameLocks (.set s key e) (.set t key e)
  · rw [Ledger.live_touch, Ledger.live_touch, alike.live]
  · exact alike.hits
  · exact alike.misses
  · exact alike.evictions

/-- **A look-up** finds the same in both. -/
theorem get (roomy : Roomy keys (coming + 1) s r) (roomy' : Roomy keys (coming + 1) t q) (key : String) :
    (t.get now key).1 = (s.get now key).1 ∧
      Alike now (s.get now key).2 (t.get now key).2 (r.after now (.get key)) (q.after now (.get key)) := by
  have room := roomy.room
  have room' := roomy'.room
  have live := roomy.accounts.live_expire now key
  have live' := roomy'.accounts.live_expire now key
  have counts := r.counts_expire now key
  have counts' := q.counts_expire now key
  have hits := alike.hits
  have misses := alike.misses
  have evictions := alike.evictions
  have found := roomy.accounts.find?_expire now key
  have found' := roomy'.accounts.find?_expire now key
  rw [alike.live] at found' live'
  rw [(roomy.accounts.get now key (by omega)).1, (roomy'.accounts.get now key (by omega)).1]
  simp only [Ledger.after, Lru.Recency.get, found, found']
  cases (r.live now).lookup key with
  | some e =>
    refine ⟨rfl, alike.of_sameLocks (.get s now key) (.get t now key) ?_ ?_ ?_ ?_⟩
    · show Ledger.live (Lru.Recency.touch _ key e) now = Ledger.live (Lru.Recency.touch _ key e) now
      rw [Ledger.live_touch, Ledger.live_touch, live, live']
    all_goals simp only [Lru.Recency.touch]; omega
  | none =>
    refine ⟨rfl, alike.of_sameLocks (.get s now key) (.get t now key) ?_ ?_ ?_ ?_⟩
    · exact live'.trans live.symm
    all_goals dsimp only; omega

/-- **An acquisition** gives the same token in both, or none. -/
theorem acquire (key : String) (timeout : Millis) :
    (t.acquire now key timeout).1 = (s.acquire now key timeout).1 ∧
      Alike now (s.acquire now key timeout).2 (t.acquire now key timeout).2 r q := by
  rw [acquire_eq, acquire_eq, alike.liveLock, alike.lastToken]
  cases (s.liveLock now key).isSome with
  | true => exact ⟨rfl, alike⟩
  | false =>
    refine ⟨rfl, alike.live, alike.hits, alike.misses, alike.evictions, fun key' => ?_, rfl⟩
    have there := liveLock_insert s now key key' ⟨s.lastToken + 1, now, timeout⟩
    have there' := liveLock_insert t now key key' ⟨s.lastToken + 1, now, timeout⟩
    rw [alike.liveLock] at there'
    exact there'.trans there.symm

theorem release (key : String) (token : Token) : Alike now (s.release key token).2 (t.release key token).2 r q where
  live := alike.live
  hits := alike.hits
  misses := alike.misses
  evictions := alike.evictions
  liveLock key' := by rw [liveLock_release, alike.liveLock, liveLock_release]
  lastToken := by rw [lastToken_release, alike.lastToken, lastToken_release]

/-- **Every call** leaves them alike. -/
theorem call (roomy : Roomy keys (coming + 1) s r) (roomy' : Roomy keys (coming + 1) t q) (call : Call)
    (written : ∀ key, call.written? = some key → key ∈ keys) :
    Alike now (s.call now call).2 (t.call now call).2 (r.after now call) (q.after now call) := by
  cases call with
  | set key e => exact alike.set roomy roomy' (written key rfl) e
  | get key => exact (alike.get roomy roomy' key).2
  | delete key =>
    refine alike.of_sameLocks (.delete s key) (.delete t key) ?_ alike.hits alike.misses alike.evictions
    rw [Ledger.after, Ledger.after, Ledger.live_erase, Ledger.live_erase, alike.live]
  | acquire key timeout => exact (alike.acquire key timeout).2
  | release key token => exact alike.release key token
  | isLocked key => exact alike
  | invalidateTag tag =>
    refine alike.of_sameLocks (.invalidateTag s tag) (.invalidateTag t tag) ?_ alike.hits alike.misses alike.evictions
    rw [Ledger.after, Ledger.after, Ledger.live_keep, Ledger.live_keep, alike.live]
  | clear => exact ⟨rfl, alike.hits, alike.misses, alike.evictions, alike.liveLock, alike.lastToken⟩
  | cleanup => exact alike.cleanup.symm.cleanup.symm
  | resetStats => exact ⟨alike.live, rfl, rfl, rfl, alike.liveLock, alike.lastToken⟩

/-- **What asks** is answered alike. -/
theorem answer (roomy : Roomy keys (coming + 1) s r) (roomy' : Roomy keys (coming + 1) t q) {call : Call}
    (asks : call.asks = true) : (t.call now call).1 = (s.call now call).1 := by
  cases call with
  | get key => exact (alike.get roomy roomy' key).1
  | acquire key timeout => exact (alike.acquire key timeout).1
  | isLocked key => exact alike.isLocked key
  | set | delete | release | invalidateTag | clear | cleanup | resetStats => cases asks

end Same

/-- **Sweeps put into a run** are not seen in what it goes through. -/
theorem run {calls : List (Instant × Call)} : ∀ {now : Instant} {s t : Store} {r q : Ledger}, Alike now s t r q →
    (now :: calls.map (·.1)).Pairwise (· ≤ ·) → (∀ c ∈ calls, ∀ key, c.2.written? = some key → key ∈ keys) →
    Roomy keys (calls.filter fun c => !c.2.isSweep).length s r →
    Roomy keys (calls.filter fun c => !c.2.isSweep).length t q →
    (t.run calls).1.filter (·.call.asks) = (s.run (calls.filter fun c => !c.2.isSweep)).1.filter (·.call.asks) ∧
      ∃ now r' q', Alike now (s.run (calls.filter fun c => !c.2.isSweep)).2 (t.run calls).2 r' q' ∧
        Roomy keys 0 (s.run (calls.filter fun c => !c.2.isSweep)).2 r' ∧ Roomy keys 0 (t.run calls).2 q' := by
  induction calls with
  | nil =>
    intro now s t r q alike _ _ roomy roomy'
    exact ⟨rfl, now, r, q, alike, roomy, roomy'⟩
  | cons c calls ih =>
    intro now s t r q alike ordered written roomy roomy'
    obtain ⟨later, call⟩ := c
    rw [List.map_cons, List.pairwise_cons] at ordered
    have alike := alike.later (ordered.1 later List.mem_cons_self)
    have written' : ∀ c ∈ calls, ∀ key, c.2.written? = some key → key ∈ keys :=
      fun c mem => written c (List.mem_cons_of_mem _ mem)
    by_cases sweep : call.isSweep
    · -- only one of them is swept
      obtain rfl : call = .cleanup := by
        cases call <;> first | rfl | cases sweep
      exact ih alike.cleanup ordered.2 written' roomy (roomy'.cleanup later)
    · have put : ((later, call) :: calls).filter (fun c => !c.2.isSweep) =
          (later, call) :: calls.filter fun c => !c.2.isSweep := by
        rw [List.filter_cons_of_pos]
        simpa using sweep
      rw [put] at roomy roomy' ⊢
      have mem := written _ List.mem_cons_self
      have after := alike.call roomy roomy' call mem
      obtain ⟨answers, rest⟩ := ih after ordered.2 written' (roomy.call later call mem) (roomy'.call later call mem)
      rw [run_cons, run_cons]
      refine ⟨?_, rest⟩
      rw [List.filter_cons, List.filter_cons, answers]
      by_cases asks : call.asks
      · rw [if_pos asks, if_pos asks, alike.answer roomy roomy' asks]
      · rw [if_neg asks, if_neg asks]

end Alike

/-- **Sweeps go unnoticed.** Calls at instants that never go back are given to an empty store with sweeps among them,
and without. If the store has room for every key that is written to, look-ups, acquisitions and questions about locks
are answered the same in both runs, down to the tokens, and in the end the same is counted. -/
theorem sweeps_unnoticed {capacity : Nat} {s : Store} (create : Store.create capacity = .ok s)
    {swept plain : List (Instant × Call)} (same : swept.filter (fun c => !c.2.isSweep) = plain)
    (ordered : (swept.map (·.1)).Pairwise (· ≤ ·)) (few : plain.length < 2 ^ 64)
    (room : (plain.filterMap (·.2.written?)).dedup.length ≤ capacity) :
    (s.run swept).1.filter (·.call.asks) = (s.run plain).1.filter (·.call.asks) ∧
    (s.run swept).2.stats.hits = (s.run plain).2.stats.hits ∧
    (s.run swept).2.stats.misses = (s.run plain).2.stats.misses ∧
    (s.run swept).2.stats.evictions = (s.run plain).2.stats.evictions := by
  subst same
  have roomy : Roomy _ _ s (.ofCapacity capacity) :=
    ⟨accounts_create create, nofun, room, (Nat.zero_add _).trans_lt few⟩
  have ordered : (0 :: swept.map (·.1)).Pairwise (· ≤ ·) := List.pairwise_cons.2 ⟨fun _ _ => Nat.zero_le _, ordered⟩
  have written : ∀ c ∈ swept, ∀ key, c.2.written? = some key →
      key ∈ ((swept.filter fun c => !c.2.isSweep).filterMap (·.2.written?)).dedup := by
    intro c mem key wrote
    apply List.mem_dedup.2
    apply List.mem_filterMap.2
    refine ⟨c, List.mem_filter.2 ⟨mem, ?_⟩, wrote⟩
    cases sweep : c.2 with
    | cleanup =>
      rw [sweep] at wrote
      cases wrote
    | _ => rfl
  obtain ⟨answers, now, r, q, alike, plain, swept⟩ := (Alike.refl 0 s _).run ordered written roomy roomy
  have ties := plain.accounts.ties
  have ties' := swept.accounts.ties
  refine ⟨answers, ?_, ?_, ?_⟩
  · show Lru.Stats.hits _ = Lru.Stats.hits _
    exact ties'.hits.trans (alike.hits ▸ ties.hits.symm)
  · exact ties'.misses.trans (alike.misses ▸ ties.misses.symm)
  · exact ties'.evictions.trans (alike.evictions ▸ ties.evictions.symm)

/-- A sweep takes away an expired entry and an abandoned lock. The look-up misses with it and without it, the lock is
taken over under the next token, and the release that comes too late frees nothing. -/
theorem sweeps_unnoticed_late_release :
    let plain : List (Instant × Call) := [(1, .set "a" ⟨default, 5, ["t"], false⟩), (1, .acquire "a" 3), (6, .get "a"),
      (6, .acquire "a" 3), (7, .release "a" 1), (7, .isLocked "a")]
    let swept : List (Instant × Call) := [(1, .set "a" ⟨default, 5, ["t"], false⟩), (1, .acquire "a" 3), (5, .cleanup),
      (6, .get "a"), (6, .acquire "a" 3), (7, .release "a" 1), (7, .cleanup), (7, .isLocked "a")]
    ∃ s, Store.create 1 = .ok s ∧ (s.run swept).1.filter (·.call.asks) = (s.run plain).1.filter (·.call.asks) ∧
      (s.run plain).1.filter (·.call.asks) = [⟨1, .acquire "a" 3, some 1⟩, ⟨6, .get "a", none⟩,
        ⟨6, .acquire "a" 3, some 2⟩, ⟨7, .isLocked "a", true⟩] := by
  intro plain swept
  obtain ⟨answers, -⟩ := sweeps_unnoticed (show Store.create 1 = .ok _ from rfl)
    (show swept.filter (fun c => !c.2.isSweep) = plain from rfl) (by decide) (by decide) (by decide)
  exact ⟨_, rfl, answers, rfl⟩

end ResponseCache.Store
