import Mathlib.Data.Set.Card
import ResponseCache.Proofs.Store.Invalidation
import ResponseCache.Proofs.Store.Locks

/-!
# What a sweep leaves

A sweep deletes the keys of the expired entries, one after the other, and filters the table of locks. `Swept` says what
comes of it: of the entries just those whose deadline is to come (`Filtered`), of the locks just those whose timeout is
not over, so that every lock that is counted is one that is held, and nothing for a second sweep at the same instant.

The entries come out right because each deletion keeps the account of the store (`Accounts.cleanup`), the locks because
none was taken in the future (`Traced.since_le`).
-/

namespace ResponseCache.Store

open Std (TreeMap)

/-- The outcome of a sweep: what is past its time is gone, expired entries are counted, and everything else stays. -/
structure Swept (s : Store) (now : Instant) (outcome : Nat × Store) : Prop where
  count : outcome.1 = (s.entries.toList.filter fun p => p.2.deadline ≤ now).length
  rest : Filtered (fun p => now < p.2.deadline) s outcome.2
  locks : ∀ (key : String) (l : Lock),
    outcome.2.locks[key]? = some l ↔ s.locks[key]? = some l ∧ now < l.since + l.timeout
  lastToken : outcome.2.lastToken = s.lastToken
  held : {key | outcome.2.isLocked now key}.encard = outcome.2.lockCount
  again : ∃ locks : TreeMap String Lock, locks.Equiv outcome.2.locks ∧
    outcome.2.cleanup now = (0, { outcome.2 with locks := locks })

variable {s t : Store} {now : Instant}

/-! ## Entries -/

/-- The locks are no part of what a removal of entries leaves. -/
theorem Filtered.relock {p : String × Entry → Bool} (filtered : Filtered p s t) (locks : TreeMap String Lock) :
    Filtered p s { t with locks := locks } where
  entries := filtered.entries
  nodes := filtered.nodes
  coherent := filtered.coherent
  tick := filtered.tick
  capacity := filtered.capacity
  indexed := ⟨filtered.indexed.under_iff, filtered.indexed.tight⟩
  hits := filtered.hits
  misses := filtered.misses
  evictions := filtered.evictions

/-- The keys of the entries that are expired. -/
def expiredKeys (s : Store) (now : Instant) : List String :=
  (s.entries.toList.filter fun p => p.2.isExpired now).map (·.1)

theorem cleanup_eq (s : Store) (now : Instant) :
    s.cleanup now = ((s.expiredKeys now).length, { (s.deleteAll (s.expiredKeys now)).2 with
      locks := (s.deleteAll (s.expiredKeys now)).2.locks.filter fun _ lock => !lock.isAbandoned now }) := rfl

theorem length_expiredKeys (s : Store) (now : Instant) :
    (s.expiredKeys now).length = (s.entries.toList.filter fun p => p.2.deadline ≤ now).length := by
  rw [expiredKeys, List.length_map]
  rfl

/-- Where nothing is expired a sweep leaves the entries alone. -/
theorem cleanup_of_live (live : ∀ p ∈ s.entries.toList, now < p.2.deadline) :
    s.cleanup now = (0, { s with locks := s.locks.filter fun _ lock => !lock.isAbandoned now }) := by
  have none : s.expiredKeys now = [] := by
    rw [expiredKeys, List.map_eq_nil_iff, List.filter_eq_nil_iff]
    intro p mem expired
    exact absurd (of_decide_eq_true expired) (Nat.not_le.2 (live p mem))
  rw [cleanup_eq, none]
  rfl

/-- **The entries** that a sweep leaves are those whose deadline is to come. -/
theorem Accounts.swept {r : Ledger} (accounts : Accounts [] s r) (now : Instant) :
    Filtered (fun p => now < p.2.deadline) s (s.cleanup now).2 := by
  have after := accounts.cleanup now
  have kept : r.keep (fun p => !p.2.isExpired now) = r.keep fun p => now < p.2.deadline :=
    Ledger.keep_congr fun p _ => by simp only [Entry.isExpired, ← decide_not, Nat.not_le]
  rw [kept] at after
  have chosen : ∀ q ∈ r.entries, q.1 ∈ s.expiredKeys now ↔ decide (now < q.2.deadline) = false := by
    intro q mem
    rw [expiredKeys, accounts.ties.entries, decide_eq_false_iff_not, Nat.not_lt]
    constructor
    · intro expired
      obtain ⟨⟨key, e⟩, there, rfl⟩ := List.mem_map.1 expired
      obtain ⟨there, due⟩ := List.mem_filter.1 there
      rw [accounts.value_unique mem there]
      exact of_decide_eq_true due
    · intro due
      exact List.mem_map.2 ⟨q, List.mem_filter.2 ⟨mem, decide_eq_true due⟩, rfl⟩
  have filtered : Filtered (fun p => now < p.2.deadline) s (s.deleteAll (s.expiredKeys now)).2 :=
    accounts.filtered rfl ⟨after.ties, after.sound, after.indexes⟩ chosen
  exact filtered.relock _

/-! ## Locks -/

section Locks

variable (past : ∀ (key : String) (l : Lock), s.locks[key]? = some l → l.since ≤ now)
include past

/-- **The locks** that a sweep leaves are those whose timeout is not over. -/
theorem getElem?_locks_cleanup (key : String) (l : Lock) :
    (s.cleanup now).2.locks[key]? = some l ↔ s.locks[key]? = some l ∧ now < l.since + l.timeout := by
  rw [locks_cleanup, TreeMap.getElem?_filter', Option.filter_eq_some_iff]
  refine and_congr_right fun here => ?_
  rw [Bool.not_eq_true', ← Bool.not_eq_true, isAbandoned_iff (past key l here), Nat.not_le]

/-- A lock that a sweep left is held. -/
theorem isLocked_cleanup (key : String) :
    (s.cleanup now).2.isLocked now key = true ↔ key ∈ (s.cleanup now).2.locks := by
  rw [TreeMap.mem_iff_isSome_getElem?]
  unfold isLocked
  split
  · next l here =>
    obtain ⟨before, live⟩ := (getElem?_locks_cleanup past key l).1 here
    have : l.isAbandoned now = false := by
      rw [← Bool.not_eq_true, isAbandoned_iff (past key l before)]
      exact Nat.not_le.2 live
    simp [this, here]
  · next none => simp [none]

/-- **Every lock that is counted** after a sweep is held. -/
theorem encard_isLocked_cleanup :
    {key | (s.cleanup now).2.isLocked now key}.encard = (s.cleanup now).2.lockCount := by
  have keys : {key | (s.cleanup now).2.isLocked now key} = ((s.cleanup now).2.locks.keys.toFinset : Set String) := by
    ext key
    simp only [Set.mem_ofPred_eq, List.coe_toFinset, isLocked_cleanup past, TreeMap.mem_keys]
  rw [keys, Set.encard_coe_eq_coe_finsetCard, List.toFinset_card_of_nodup TreeMap.nodup_keys, TreeMap.length_keys]
  rfl

/-- A second filter takes no lock away. -/
theorem locks_cleanup_again :
    ((s.cleanup now).2.locks.filter fun _ lock => !lock.isAbandoned now).Equiv (s.cleanup now).2.locks := by
  rw [TreeMap.filter_equiv_self_iff]
  intro key mem
  have here := TreeMap.getElem?_eq_some_getElem mem
  obtain ⟨before, live⟩ := (getElem?_locks_cleanup past key _).1 here
  rw [Bool.not_eq_true', ← Bool.not_eq_true, isAbandoned_iff (past key _ before)]
  exact Nat.not_le.2 live

end Locks

/-! ## Both -/

/-- A store with an account, and without locks from the future, is swept. -/
theorem Accounts.cleanup_swept {r : Ledger} (accounts : Accounts [] s r)
    (past : ∀ (key : String) (l : Lock), s.locks[key]? = some l → l.since ≤ now) : Swept s now (s.cleanup now) where
  count := length_expiredKeys s now
  rest := accounts.swept now
  locks := getElem?_locks_cleanup past
  lastToken := lastToken_cleanup s now
  held := encard_isLocked_cleanup past
  again := by
    refine ⟨_, locks_cleanup_again past, cleanup_of_live fun p mem => ?_⟩
    rw [(accounts.swept now).entries] at mem
    exact of_decide_eq_true (List.mem_filter.1 mem).2

/-- **A sweep is exact** in every store with a history, at every instant that is not before its last event. It removes
the entries whose deadline has come, which it counts, and the locks whose timeout is over; it leaves the other entries
as they were and in their order, under all their tags and no others, and the other locks with their tokens, and
changes no counter. Afterwards the locks that are recorded are those that are held, and a second sweep removes
nothing. -/
theorem cleanup_exact {capacity : Nat} {h : List Event} (history : History capacity h s) (few : h.length < 2 ^ 64)
    (later : latest h ≤ now) : Swept s now (s.cleanup now) := by
  have acquired : (tokens h).length < 2 ^ 64 := Nat.lt_of_le_of_lt (List.length_filterMap_le ..) few
  have traced := history.traced acquired
  apply (history.accounts few).cleanup_swept
  intro key l here
  exact Nat.le_trans (traced.since_le key l here) later

/-- At the instant of its deadline an entry is swept, and so is a lock at the instant it was taken if its timeout is
zero; the entry that shares a tag with the first and the lock with a millisecond to go stay. -/
theorem cleanup_exact_boundary : ∃ (h : List Event) (s : Store), History 3 h s ∧ h.length < 2 ^ 64 ∧ latest h ≤ 5 ∧
    (s.cleanup 5).1 = 1 ∧ (s.cleanup 5).2.entries.toList = [("c", ⟨default, 6, ["u"], false⟩)] ∧
    (s.cleanup 5).2.locks["zero"]? = none ∧ (s.cleanup 5).2.locks["live"]? = some ⟨1, 2, 4⟩ := by
  let s : Store := ⟨⟨∅, ∅, 0, 3, {}, by decide⟩, ∅, ∅, 0⟩
  have history := (show History 3 [] s from .create rfl)
    |>.event (.set "a" ⟨default, 5, ["t", "u"], false⟩) (show 0 ≤ 1 by decide)
    |>.event (.set "c" ⟨default, 6, ["u"], false⟩) (show 1 ≤ 2 by decide)
    |>.event (.acquire "live" 4) (show 2 ≤ 2 by decide)
    |>.event (.acquire "zero" 0) (show 2 ≤ 5 by decide)
  have swept := cleanup_exact history (by decide) (show 5 ≤ 5 by decide)
  have entries := (history.accounts (by decide)).ties.entries
  refine ⟨_, _, history, by decide, by decide, ?_, ?_, ?_, ?_⟩
  · rw [swept.count, entries]
    rfl
  · rw [swept.rest.entries, entries]
    rfl
  · rw [Option.eq_none_iff_forall_ne_some]
    intro l here
    obtain ⟨before, live⟩ := (swept.locks "zero" l).1 here
    cases before
    exact absurd live (by decide)
  · exact (swept.locks "live" ⟨1, 2, 4⟩).2 ⟨rfl, by decide⟩

end ResponseCache.Store
