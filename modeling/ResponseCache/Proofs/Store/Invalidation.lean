import ResponseCache.Proofs.Store.Account
import ResponseCache.Proofs.Store.Provenance

/-!
# What an invalidation leaves

The invalidation of a tag deletes many keys, one after the other, and each deletion edits the entries and the index.
`Filtered` says what such a removal may leave: of the entries just those that pass, every one as it was and in its
place in the order of touches, with the index that belongs to them and the same counters.

A removal of keys counts what it removes, for each deletion that finds its key makes the store smaller by one
(`size_deleteAll`), and it touches nothing else (`Accounts.filtered`). Neither depends on the order in which the keys
are visited, which `dropTag` takes as an argument (`invalidateTag_exact`).
-/

namespace ResponseCache

open Std (TreeMap TreeSet TransOrd LawfulEqOrd)

namespace Store

/-- The index has the keys of the entries under their tags, nothing else, and no tag without a key. -/
structure Indexed (s : Store) : Prop where
  under_iff : ∀ tag key : String,
    (∃ keys, s.tagged[tag]? = some keys ∧ key ∈ keys) ↔ ∃ e, s.Holds key e ∧ tag ∈ e.tags
  tight : Tight s.tagged

/-- The second store has of the entries of the first one those that pass, with their values, deadlines, tags and
ticks. -/
structure Filtered (p : String × Entry → Bool) (s t : Store) : Prop where
  entries : t.entries.toList = s.entries.toList.filter p
  nodes : ∀ key : String, t.entries.nodes[key]? = (s.entries.nodes[key]?).filter fun node => p (key, node.value)
  coherent : t.entries.Coherent
  tick : t.entries.tick = s.entries.tick
  capacity : t.entries.capacity = s.entries.capacity
  indexed : t.Indexed
  hits : t.stats.hits = s.stats.hits
  misses : t.stats.misses = s.stats.misses
  evictions : t.stats.evictions = s.stats.evictions

/-- The outcome of an invalidation: what carried the tag is counted and gone, and nothing is left to invalidate. -/
structure Invalidated (s : Store) (tag : String) (outcome : Nat × Store) : Prop where
  count : outcome.1 = (s.entries.toList.filter fun p => tag ∈ p.2.tags).length
  rest : Filtered (fun p => tag ∉ p.2.tags) s outcome.2
  locks : SameLocks s outcome.2
  again : outcome.2.invalidateTag tag = (0, outcome.2)

end Store

/-! ## Removing a key -/

namespace Lru

variable {K V : Type} [Ord K] [TransOrd K] (c : Lru K V) (k : K)

/-- A removal makes the cache smaller by one, or does not find the key. -/
theorem size_remove : (c.remove k).2.size + (c.remove k).1.isSome.toNat = c.size := by
  unfold remove
  cases here : c.nodes[k]? with
  | none => rfl
  | some node =>
    have present : c.nodes.contains k = true := by rw [TreeMap.contains_eq_isSome_getElem?, here]; rfl
    have some : c.nodes.size ≠ 0 := by
      have full := TreeMap.isEmpty_eq_false_of_contains present
      rw [TreeMap.isEmpty_eq_size_eq_zero] at full
      simpa using full
    show (c.nodes.erase k).size + 1 = c.nodes.size
    rw [TreeMap.size_erase, if_pos present]
    omega

theorem nodes_remove [LawfulEqOrd K] [DecidableEq K] (k' : K) :
    (c.remove k).2.nodes[k']? = if k = k' then none else c.nodes[k']? := by
  unfold remove
  cases here : c.nodes[k]? with
  | none =>
    by_cases same : k = k'
    · rw [if_pos same, ← same]
      exact here
    · rw [if_neg same]
  | some node =>
    show (c.nodes.erase k)[k']? = _
    simp only [TreeMap.getElem?_erase, Std.compare_eq_iff_eq]

omit [TransOrd K] in
theorem tick_remove : (c.remove k).2.tick = c.tick := by
  unfold remove
  cases c.nodes[k]? <;> rfl

end Lru

namespace Store

variable {s t : Store} {tag : String}

theorem delete_fst (s : Store) (key : String) : (s.delete key).1 = (s.entries.remove key).1.isSome := by
  unfold Store.delete
  split <;> next removed => simp [removed]

theorem entries_delete (s : Store) (key : String) : (s.delete key).2.entries = (s.entries.remove key).2 := by
  unfold Store.delete
  split <;> next removed => simp [removed, untag]

/-- **The count of a removal** is how much smaller the store becomes. -/
theorem size_deleteAll (keys : List String) (s : Store) :
    (s.deleteAll keys).1 + (s.deleteAll keys).2.size = s.size := by
  induction keys generalizing s with
  | nil => simp [deleteAll_eq]
  | cons key keys ih =>
    have here : (s.delete key).2.size + (s.delete key).1.toNat = s.size := by
      rw [delete_fst, size, entries_delete]
      exact s.entries.size_remove key
    have later := ih (s.delete key).2
    rw [deleteAll_cons]
    dsimp only
    omega

theorem nodes_deleteAll (keys : List String) (s : Store) (key : String) :
    (s.deleteAll keys).2.entries.nodes[key]? = if key ∈ keys then none else s.entries.nodes[key]? := by
  induction keys generalizing s with
  | nil => simp [deleteAll_eq]
  | cons key' keys ih =>
    rw [deleteAll_cons]
    dsimp only
    rw [ih, entries_delete, Lru.nodes_remove]
    by_cases same : key' = key
    · simp [same]
    · simp [same, Ne.symm same]

theorem tick_deleteAll (keys : List String) (s : Store) : (s.deleteAll keys).2.entries.tick = s.entries.tick := by
  refine deleteAll_keeps (p := fun t => t.entries.tick = s.entries.tick) (fun t key same => ?_) rfl
  rw [entries_delete, Lru.tick_remove, same]

/-! ## What a removal leaves -/

theorem Accounts.indexed {r : Ledger} (accounts : Accounts [] s r) : s.Indexed where
  under_iff tag key := by
    rw [← mem_under_iff, accounts.indexes.mem_iff]
    simp [Holds, accounts.ties.peek?_eq, accounts.find?_eq_some_iff]
  tight := accounts.indexes.tight

/-- **A removal of keys** leaves the other entries as they are, if an account says the same. -/
theorem Accounts.filtered {r : Ledger} {p : String × Entry → Bool} {keys : List String} (accounts : Accounts [] s r)
    (entries : t.entries = s.entries) (after : Accounts [] (t.deleteAll keys).2 (r.keep p))
    (chosen : ∀ q ∈ r.entries, q.1 ∈ keys ↔ p q = false) : Filtered p s (t.deleteAll keys).2 where
  entries := by rw [after.ties.entries, accounts.ties.entries]; rfl
  nodes key := by
    rw [nodes_deleteAll, entries]
    cases here : s.entries.nodes[key]? with
    | none => simp
    | some node =>
      have mem : (key, node.value) ∈ r.entries := by
        rw [← accounts.find?_eq_some_iff, ← accounts.ties.peek?_eq, Lru.peek?, here]
        rfl
      rw [Option.filter_some]
      cases passes : p (key, node.value) with
      | true => simp [chosen _ mem, passes]
      | false => simp [chosen _ mem, passes]
  coherent := after.ties.coherent
  tick := by rw [tick_deleteAll, entries]
  capacity := after.ties.capacity.trans accounts.ties.capacity.symm
  indexed := after.indexed
  hits := after.ties.hits.trans accounts.ties.hits.symm
  misses := after.ties.misses.trans accounts.ties.misses.symm
  evictions := after.ties.evictions.trans accounts.ties.evictions.symm

/-- A tag that no entry carries is not in the index. -/
theorem Indexed.invalidateTag_eq (indexed : s.Indexed) (gone : ∀ key e, s.Holds key e → tag ∉ e.tags) :
    s.invalidateTag tag = (0, s) := by
  unfold Store.invalidateTag
  split
  · rfl
  · next keys here =>
    have some := indexed.tight tag keys here
    rw [TreeSet.isEmpty_eq_false_iff_exists_mem] at some
    obtain ⟨key, mem⟩ := some
    obtain ⟨e, stored, tagged⟩ := (indexed.under_iff tag key).1 ⟨keys, here, mem⟩
    exact absurd tagged (gone key e stored)

section Outcome

variable {r : Ledger} (accounts : Accounts [] s r)
include accounts

/-- The outcome of an invalidation is right if its account is, and if it counts what it removes. -/
theorem Accounts.invalidated_of {count : Nat} (after : Accounts [] t (r.keep fun p => tag ∉ p.2.tags))
    (rest : Filtered (fun p => tag ∉ p.2.tags) s t) (smaller : count + t.size = s.size) (locks : SameLocks s t) :
    Invalidated s tag (count, t) where
  count := by
    have before : s.size = r.entries.length := accounts.ties.length
    have left : t.size = (r.entries.filter fun p => tag ∉ p.2.tags).length := after.ties.length
    have split := List.length_eq_length_filter_add (l := r.entries) fun p => decide (tag ∈ p.2.tags)
    simp only [decide_not] at left
    rw [accounts.ties.entries]
    dsimp only
    omega
  rest := rest
  locks := locks
  again := by
    apply rest.indexed.invalidateTag_eq
    intro key e stored
    have mem : (key, e) ∈ r.entries.filter fun p => tag ∉ p.2.tags := by
      apply after.find?_eq_some_iff.1
      rw [← after.ties.peek?_eq]
      exact stored
    simpa using (List.mem_filter.1 mem).2

/-- **The keys under a tag are dropped** with the same outcome in every order. -/
theorem Accounts.dropped {order : List String} (under : ∀ key, key ∈ order ↔ key ∈ s.tagged.getD tag ∅) :
    Invalidated s tag (s.dropTag tag order) := by
  have after := accounts.dropTag under
  have same := SameLocks.deleteAll { s with tagged := s.tagged.erase tag } order
  apply accounts.invalidated_of after
  · apply accounts.filtered (t := { s with tagged := s.tagged.erase tag }) rfl after
    intro p mem
    simp [accounts.tagged_iff tag mem, under]
  · exact size_deleteAll order { s with tagged := s.tagged.erase tag }
  · exact ⟨same.locks, same.lastToken⟩

theorem Accounts.invalidated (tag : String) : Invalidated s tag (s.invalidateTag tag) := by
  have after := accounts.invalidateTag tag
  unfold Store.invalidateTag at after ⊢
  split at after
  · next none =>
    -- no entry carries the tag
    apply accounts.invalidated_of after
    · apply accounts.filtered (t := s) (p := fun p => tag ∉ p.2.tags) rfl
        (show Accounts [] (s.deleteAll []).2 _ from after)
      intro p mem
      simp [accounts.tagged_iff tag mem, mem_under_iff, none]
    · exact Nat.zero_add _
    · exact .refl s
  · next keys here => exact accounts.dropped fun key => by simp [mem_under_iff, here]

end Outcome

/-- **An invalidation is exact** in every store with a history. It counts the entries that carry the tag, expired ones
included, and leaves just the others, as they were and in their order, under all their tags and no others; no lock and
no counter changes, and a second invalidation finds nothing. The order in which the keys under the tag are visited
makes no difference. -/
theorem invalidateTag_exact {capacity : Nat} {h : List Event} (history : History capacity h s) (few : h.length < 2 ^ 64)
    (tag : String) :
    Invalidated s tag (s.invalidateTag tag) ∧
    ∀ order : List String, order.Perm (s.tagged.getD tag ∅).toList → Invalidated s tag (s.dropTag tag order) := by
  have accounts := history.accounts few
  constructor
  · exact accounts.invalidated tag
  · intro order perm
    apply accounts.dropped
    intro key
    rw [perm.mem_iff, TreeSet.mem_toList]

/-- An expired entry is invalidated with a live one, and the entry between them stays, though it shares a tag with
both. -/
theorem invalidateTag_exact_overlapping : ∃ (h : List Event) (s : Store), History 3 h s ∧ h.length < 2 ^ 64 ∧
    (s.invalidateTag "t").1 = 2 ∧ (s.invalidateTag "t").2.entries.toList = [("c", ⟨default, 20, ["u"], false⟩)] ∧
    (s.dropTag "t" (s.tagged.getD "t" ∅).toList.reverse).1 = 2 := by
  let s : Store := ⟨⟨∅, ∅, 0, 3, {}, by decide⟩, ∅, ∅, 0⟩
  have history := (show History 3 [] s from .create rfl)
    |>.event (.set "a" ⟨default, 5, ["t", "u", "t"], false⟩) (show 0 ≤ 1 by decide)
    |>.event (.set "c" ⟨default, 20, ["u"], false⟩) (show 1 ≤ 2 by decide)
    |>.event (.set "b" ⟨default, 20, ["u", "t"], false⟩) (show 2 ≤ 6 by decide)
  obtain ⟨dropped, anyhow⟩ := invalidateTag_exact history (by decide) "t"
  have entries := (history.accounts (by decide)).ties.entries
  refine ⟨_, _, history, by decide, ?_, ?_, ?_⟩
  · rw [dropped.count, entries]
    rfl
  · rw [dropped.rest.entries, entries]
    rfl
  · rw [(anyhow _ (List.reverse_perm _)).count, entries]
    rfl

end Store

end ResponseCache
