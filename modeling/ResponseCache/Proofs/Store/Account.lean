import ResponseCache.Proofs.Lru.Refinement
import ResponseCache.Proofs.Store.History
import ResponseCache.Proofs.Store.TagIndex

/-!
# The account of a store

What a store holds is an account of its cache: a list of entries in order of touches. `Ledger.after` says what each
call makes of it, and `Accounts` ties a store to it: the cache represents the list and the index is the one of the
list. Every call keeps the tie (`Accounts.call`), and with it the index is exact after every history
(`tag_index_exact`).
-/

namespace ResponseCache.Store

open Std (TreeSet)

/-- The entries of a store in order of touches, with their counters. -/
abbrev Ledger := Lru.Recency String Entry

namespace Ledger

/-- The entries that pass, in the same order. -/
def keep (r : Ledger) (p : String × Entry → Bool) : Ledger := { r with entries := r.entries.filter p }

/-- Takes out a key whose entry is expired. -/
def expire (r : Ledger) (now : Instant) (key : String) : Ledger :=
  match r.find? key with
  | some e => if e.isExpired now then r.erase key else r
  | none => r

/-- What a call makes of the entries. -/
def after (r : Ledger) (now : Instant) : Call → Ledger
  | .set key entry => (r.insert key entry).2
  | .get key => ((r.expire now key).get key).2
  | .delete key => r.erase key
  | .invalidateTag tag => r.keep fun p => tag ∉ p.2.tags
  | .clear => { r with entries := [] }
  | .cleanup => r.keep fun p => !p.2.isExpired now
  | .resetStats => { r with hits := 0, misses := 0, evictions := 0 }
  | .acquire _ _ | .release _ _ | .isLocked _ => r

theorem keep_congr {r : Ledger} {p q : String × Entry → Bool} (h : ∀ x ∈ r.entries, p x = q x) :
    r.keep p = r.keep q := by
  rw [keep, keep, List.filter_congr h]

theorem keep_eq_self {r : Ledger} {p : String × Entry → Bool} (h : ∀ x ∈ r.entries, p x = true) : r.keep p = r := by
  rw [keep, List.filter_eq_self.2 h]

theorem touches_expire (r : Ledger) (now : Instant) (key : String) : (r.expire now key).touches = r.touches := by
  unfold expire
  split
  · split <;> rfl
  · rfl

/-- A call touches one entry at most. -/
theorem touches_after_le (r : Ledger) (now : Instant) (call : Call) : (r.after now call).touches ≤ r.touches + 1 := by
  cases call with
  | set key e => exact Nat.le_of_eq (Lru.Recency.touches_insert ..)
  | get key =>
    simp only [after, Lru.Recency.get]
    split
    · exact Nat.le_of_eq (congrArg (· + 1) (touches_expire r now key))
    · exact Nat.le_succ_of_le (Nat.le_of_eq (touches_expire r now key))
  | delete | invalidateTag | clear | cleanup | resetStats | acquire | release | isLocked => exact Nat.le_succ _

theorem capacity_after (r : Ledger) (now : Instant) (call : Call) : (r.after now call).capacity = r.capacity := by
  have expire : ∀ key, (r.expire now key).capacity = r.capacity := fun key => by
    unfold Ledger.expire
    split
    · split <;> rfl
    · rfl
  cases call with
  | set key e => exact Lru.Recency.capacity_insert ..
  | get key =>
    simp only [after, Lru.Recency.get]
    split <;> exact expire key
  | delete | invalidateTag | clear | cleanup | resetStats | acquire | release | isLocked => rfl

end Ledger

/-- Deletes the keys that stand under a tag in the given order, once the tag is out of the index. -/
def dropTag (s : Store) (tag : String) (order : List String) : Nat × Store :=
  { s with tagged := s.tagged.erase tag }.deleteAll order

/-! ## The tie -/

/-- A store and its account. -/
structure Accounts (dropped : List String) (s : Store) (r : Ledger) : Prop where
  ties : s.entries.Represents r
  sound : r.Sound
  indexes : Indexes dropped s.tagged r.entries

namespace Accounts

variable {dropped : List String} {s : Store} {r : Ledger}

section Any

variable (accounts : Accounts dropped s r)
include accounts

theorem nodup : (r.entries.map (·.1)).Nodup := accounts.ties.nodup_keys

theorem find?_eq_some_iff {key : String} {e : Entry} : r.find? key = some e ↔ (key, e) ∈ r.entries :=
  Lru.lookup_eq_some_iff accounts.nodup

theorem value_unique {key : String} {e e' : Entry} (h : (key, e) ∈ r.entries) (h' : (key, e') ∈ r.entries) : e = e' :=
  congrArg Prod.snd (List.inj_on_of_nodup_map accounts.nodup h h' rfl)

theorem absent {key : String} (none : r.find? key = none) (e : Entry) : (key, e) ∉ r.entries := fun mem => by
  rw [accounts.find?_eq_some_iff.2 mem] at none
  cases none

/-- What is left when a new key drives out the head. -/
theorem mem_evict_touch {key victim : String} {e old : Entry} {rest : List (String × Entry)}
    (none : r.find? key = none) (list : r.entries = (victim, old) :: rest) (p : String × Entry) :
    p ∈ ((r.evict 1).touch key e).entries ↔ p ∈ (r.entries ++ [(key, e)]).filter (·.1 != victim) := by
  have nodup := accounts.nodup
  rw [list, List.map_cons, List.nodup_cons] at nodup
  have rest_ne : ∀ p ∈ rest, p.1 ≠ victim := fun p mem eq => nodup.1 (List.mem_map.2 ⟨p, mem, eq⟩)
  have key_ne : ∀ p ∈ rest, p.1 ≠ key := by
    rintro ⟨_, e'⟩ mem rfl
    exact accounts.absent none e' (list ▸ List.mem_cons_of_mem _ mem)
  have ne : key ≠ victim := by
    rintro rfl
    exact accounts.absent none old (list ▸ List.mem_cons_self)
  simp only [Lru.Recency.touch, Lru.Recency.erase, Lru.Recency.evict, list, List.drop_one, List.tail_cons,
    List.mem_append,
    List.mem_filter, List.cons_append, List.mem_cons, bne_iff_ne, List.not_mem_nil, or_false]
  constructor
  · rintro (⟨mem, -⟩ | rfl)
    · exact ⟨Or.inr (Or.inl mem), rest_ne p mem⟩
    · exact ⟨Or.inr (Or.inr rfl), ne⟩
  · rintro ⟨rfl | mem | rfl, other⟩
    · exact absurd rfl other
    · exact Or.inl ⟨mem, key_ne p mem⟩
    · exact Or.inr rfl

theorem delete (key : String) : Accounts dropped (s.delete key).2 (r.erase key) := by
  obtain ⟨found, ties⟩ := accounts.ties.remove key
  have sound : (r.erase key).Sound := accounts.sound.call (.remove key)
  unfold Store.delete
  split
  · next e entries removed =>
    rw [removed] at found ties
    exact ⟨ties, sound, accounts.indexes.erase accounts.nodup (accounts.find?_eq_some_iff.1 found.symm)⟩
  · next entries removed =>
    rw [removed] at found ties
    refine ⟨ties, sound, ?_⟩
    rw [Lru.Recency.erase_of_find?_eq_none found.symm]
    exact accounts.indexes

end Any

theorem deleteAll : ∀ (keys : List String) {s : Store} {r : Ledger}, Accounts dropped s r →
    Accounts dropped (s.deleteAll keys).2 (r.keep fun p => p.1 ∉ keys)
  | [], s, r, accounts => by
    rw [Ledger.keep_eq_self (by simp)]
    exact accounts
  | key :: keys, s, r, accounts => by
    have rest := (accounts.delete key).deleteAll keys
    have : Ledger.keep (r.erase key) (fun p => p.1 ∉ keys) = r.keep fun p => p.1 ∉ key :: keys := by
      simp only [Ledger.keep, Lru.Recency.erase, List.filter_filter]
      congr 1
      refine List.filter_congr fun p _ => ?_
      by_cases h : p.1 = key <;> simp [h]
    rw [this] at rest
    rw [deleteAll_cons]
    exact rest

section Whole

variable (accounts : Accounts [] s r)
include accounts

/-- **A write**, with everything it does to the index. -/
theorem set (key : String) (e : Entry) (room : r.touches + 1 < 2 ^ 64) :
    Accounts [] (s.set key e) (r.insert key e).2 := by
  have pos := accounts.sound.capacity_pos
  obtain ⟨same, ties⟩ := accounts.ties.insert pos key e room
  have sound := accounts.sound.insert key e
  unfold Store.set
  rw [accounts.ties.peek?_eq key]
  rcases r.insert_cases pos key e with ⟨present, eq⟩ | ⟨absent, -, eq⟩ | ⟨⟨victim, old⟩, rest, absent, -, list, eq⟩
  · obtain ⟨previous, here⟩ := Option.isSome_iff_exists.1 present
    rw [eq] at same ties sound
    have untagged := accounts.indexes.erase accounts.nodup (accounts.find?_eq_some_iff.1 here)
    have tagged := untagged.append key e (by simp)
    simp only [here, eq, same, untag, tag]
    exact ⟨ties, sound, tagged⟩
  · rw [eq] at same ties sound
    have tagged := accounts.indexes.append key e (by simp)
    have gone := Lru.Recency.erase_of_find?_eq_none absent
    simp only [absent, eq, same, tag]
    refine ⟨ties, sound, ?_⟩
    rw [Lru.Recency.touch, gone]
    exact tagged
  · rw [eq] at same ties sound
    have tagged := accounts.indexes.append key e (by simp)
    -- the victim leaves the index after the new key entered it
    have nodup : ((r.entries ++ [(key, e)]).map (·.1)).Nodup := by
      rw [List.map_append, List.nodup_append']
      exact ⟨accounts.nodup, by simp, by simpa using accounts.absent absent⟩
    have untagged := tagged.erase nodup (show (victim, old) ∈ _ by simp [list])
    simp only [absent, eq, same, untag, tag]
    exact ⟨ties, sound, untagged.of_mem fun p => accounts.mem_evict_touch absent list p⟩

theorem expire (now : Instant) (key : String) :
    Accounts [] (match s.entries.peek? key with
      | some e => if e.isExpired now then (s.delete key).2 else s
      | none => s) (r.expire now key) := by
  rw [accounts.ties.peek?_eq, Ledger.expire]
  split
  · split
    · exact accounts.delete key
    · exact accounts
  · exact accounts

/-- **A lookup**, with what it removes. -/
theorem get (now : Instant) (key : String) (room : r.touches + 1 < 2 ^ 64) :
    (s.get now key).1 = ((r.expire now key).get key).1 ∧
      Accounts [] (s.get now key).2 ((r.expire now key).get key).2 := by
  have expired := accounts.expire now key
  have touches : ((r.expire now key).get key).2.touches < 2 ^ 64 :=
    Nat.lt_of_le_of_lt (Ledger.touches_after_le r now (.get key)) room
  obtain ⟨same, ties⟩ := expired.ties.get key touches
  refine ⟨same, ties, expired.sound.call (.get key), ?_⟩
  unfold Lru.Recency.get
  split
  · next e here =>
    -- a touch moves the entry only
    rw [expired.find?_eq_some_iff] at here
    refine expired.indexes.of_mem fun p => ?_
    simp only [Lru.Recency.touch, Lru.Recency.erase, List.mem_append, List.mem_filter, bne_iff_ne, List.mem_singleton]
    constructor
    · rintro (⟨mem, -⟩ | rfl)
      · exact mem
      · exact here
    · intro mem
      by_cases eq : p.1 = key
      · obtain ⟨_, e'⟩ := p
        cases eq
        exact Or.inr (by rw [expired.value_unique here mem])
      · exact Or.inl ⟨mem, eq⟩
  · exact expired.indexes

/-- The index tells which entries carry a tag. -/
theorem tagged_iff (tag : String) {p : String × Entry} (mem : p ∈ r.entries) :
    tag ∈ p.2.tags ↔ p.1 ∈ s.tagged.getD tag ∅ := by
  rw [accounts.indexes.mem_iff]
  refine ⟨fun tagged => ⟨by simp, p.2, mem, tagged⟩, ?_⟩
  rintro ⟨-, e, mem', tagged⟩
  rwa [accounts.value_unique mem mem']

/-- The keys under a tag are dropped in any order. -/
theorem dropTag {tag : String} {order : List String} (under : ∀ key, key ∈ order ↔ key ∈ s.tagged.getD tag ∅) :
    Accounts [] (s.dropTag tag order).2 (r.keep fun p => tag ∉ p.2.tags) := by
  have dropped : Accounts [tag] { s with tagged := s.tagged.erase tag } r :=
    ⟨accounts.ties, accounts.sound, accounts.indexes.drop tag⟩
  have kept : r.keep (fun p => p.1 ∉ order) = r.keep fun p => tag ∉ p.2.tags :=
    Ledger.keep_congr fun p mem => by simp [accounts.tagged_iff tag mem, under]
  have all := dropped.deleteAll order
  rw [kept] at all
  refine ⟨all.ties, all.sound, all.indexes.settle fun key e mem tag' mem' => ?_⟩
  obtain rfl := List.mem_singleton.1 mem'
  simpa using (List.mem_filter.1 mem).2

theorem invalidateTag (tag : String) : Accounts [] (s.invalidateTag tag).2 (r.keep fun p => tag ∉ p.2.tags) := by
  unfold Store.invalidateTag
  split
  · next none =>
    rw [Ledger.keep_eq_self fun p mem => ?_]
    · exact accounts
    · simp [accounts.tagged_iff tag mem, mem_under_iff, none]
  · next keys here => exact accounts.dropTag fun key => by simp [mem_under_iff, here]

theorem cleanup (now : Instant) : Accounts [] (s.cleanup now).2 (r.keep fun p => !p.2.isExpired now) := by
  have all := accounts.deleteAll ((s.entries.toList.filter fun p => p.2.isExpired now).map (·.1))
  rw [accounts.ties.entries] at all
  have kept : (r.keep fun p => p.1 ∉ (r.entries.filter fun p => p.2.isExpired now).map (·.1)) =
      r.keep fun p => !p.2.isExpired now := Ledger.keep_congr fun p mem => by
    have : p.1 ∈ (r.entries.filter fun p => p.2.isExpired now).map (·.1) ↔ p.2.isExpired now = true := by
      constructor
      · intro h
        obtain ⟨⟨_, e⟩, mem', eq⟩ := List.mem_map.1 h
        obtain ⟨mem', expired⟩ := List.mem_filter.1 mem'
        cases eq
        rwa [accounts.value_unique mem mem']
      · exact fun expired => List.mem_map.2 ⟨p, List.mem_filter.2 ⟨mem, expired⟩, rfl⟩
    by_cases expired : p.2.isExpired now <;> simp [this, expired]
  rw [kept, ← accounts.ties.entries] at all
  exact ⟨all.ties, all.sound, all.indexes⟩

/-- **Every call** keeps the tie. -/
theorem call (now : Instant) (call : Call) (room : r.touches + 1 < 2 ^ 64) :
    Accounts [] (s.call now call).2 (r.after now call) := by
  cases call with
  | set key e => exact accounts.set key e room
  | get key => exact (accounts.get now key room).2
  | delete key => exact accounts.delete key
  | invalidateTag tag => exact accounts.invalidateTag tag
  | cleanup => exact accounts.cleanup now
  | clear =>
    have := accounts.ties.call accounts.sound.capacity_pos .clear (Nat.lt_of_succ_lt room)
    exact ⟨this.2, accounts.sound.call .clear, .empty⟩
  | resetStats =>
    have := accounts.ties.call accounts.sound.capacity_pos .resetStats (Nat.lt_of_succ_lt room)
    exact ⟨this.2, accounts.sound.call .resetStats, accounts.indexes⟩
  | acquire key timeout =>
    simp only [Store.call, Store.acquire]
    split <;> exact ⟨accounts.ties, accounts.sound, accounts.indexes⟩
  | release key token =>
    simp only [Store.call, Store.release]
    split
    · split <;> exact ⟨accounts.ties, accounts.sound, accounts.indexes⟩
    · exact accounts
  | isLocked key => exact accounts

end Whole

end Accounts

theorem accounts_create {capacity : Nat} {s : Store} (create : Store.create capacity = .ok s) :
    Accounts [] s (.ofCapacity capacity) := by
  unfold Store.create at create
  cases made : (Lru.create capacity : Except CacheError (Lru String Entry)) with
  | error _ => rw [made] at create; cases create
  | ok entries =>
    obtain ⟨pos, ties⟩ := Lru.represents_of_create made
    rw [made] at create
    cases create
    exact ⟨ties, .ofCapacity pos, .empty⟩

/-! ## The account of a history -/

/-- The account of what a history did to the empty store. -/
def ledger (capacity : Nat) : List Event → Ledger
  | [] => .ofCapacity capacity
  | e :: h => (ledger capacity h).after e.now e.call

theorem capacity_ledger (capacity : Nat) : ∀ h, (ledger capacity h).capacity = capacity
  | [] => rfl
  | e :: h => (Ledger.capacity_after _ e.now e.call).trans (capacity_ledger capacity h)

theorem touches_ledger_le (capacity : Nat) : ∀ h, (ledger capacity h).touches ≤ h.length
  | [] => Nat.le_refl _
  | e :: h => Nat.le_trans (Ledger.touches_after_le _ e.now e.call) (Nat.succ_le_succ (touches_ledger_le capacity h))

/-- A store is accounted for by its history. -/
theorem History.accounts {capacity : Nat} {h : List Event} {s : Store} (history : History capacity h s)
    (few : h.length < 2 ^ 64) : Accounts [] s (ledger capacity h) := by
  induction history with
  | create create => exact accounts_create create
  | @event h s now call _ _ ih =>
    rw [List.length_cons] at few
    have room : (ledger capacity h).touches + 1 < 2 ^ 64 :=
      Nat.lt_of_le_of_lt (Nat.succ_le_succ (touches_ledger_le capacity h)) few
    exact (ih (Nat.lt_of_succ_lt few)).call now call room

/-- **The index is exact after every history**: a key stands under a tag if and only if the store holds an entry under
the key that carries the tag. No tag stands there without a key, and there are no more entries than the capacity
allows. -/
theorem tag_index_exact {capacity : Nat} {h : List Event} {s : Store} (history : History capacity h s)
    (few : h.length < 2 ^ 64) :
    (∀ tag key : String, (∃ keys, s.tagged[tag]? = some keys ∧ key ∈ keys) ↔
      ∃ e, s.entries.peek? key = some e ∧ tag ∈ e.tags) ∧
    (∀ (tag : String) (keys : TreeSet String), s.tagged[tag]? = some keys → keys.isEmpty = false) ∧
    s.size ≤ capacity := by
  have accounts := history.accounts few
  refine ⟨fun tag key => ?_, accounts.indexes.tight, ?_⟩
  · rw [← mem_under_iff, accounts.indexes.mem_iff]
    simp only [List.not_mem_nil, not_false_eq_true, true_and, accounts.ties.peek?_eq, accounts.find?_eq_some_iff]
  · have := accounts.sound.length_le
    rw [capacity_ledger] at this
    exact accounts.ties.length.trans_le this

/-- An overwritten entry leaves the index under the tags that the new one does not carry, and only there. -/
theorem tag_index_exact_overwritten : ∃ (h : List Event) (s : Store), History 2 h s ∧
    (∃ keys, s.tagged["t"]? = some keys ∧ "a" ∈ keys) ∧ ¬ (∃ keys, s.tagged["u"]? = some keys ∧ "a" ∈ keys) ∧
    s.size ≤ 2 := by
  let s : Store := ⟨⟨∅, ∅, 0, 2, {}, by decide⟩, ∅, ∅, 0⟩
  have history := (show History 2 [] s from .create rfl)
    |>.event (.set "a" ⟨default, 10, ["t", "u", "t"], false⟩) (show 0 ≤ 1 by decide)
    |>.event (.set "b" ⟨default, 10, ["u"], false⟩) (show 1 ≤ 2 by decide)
    |>.event (.set "a" ⟨default, 20, ["t"], false⟩) (show 2 ≤ 3 by decide)
  obtain ⟨mem_iff, -, size⟩ := tag_index_exact history (by decide)
  refine ⟨_, _, history, (mem_iff "t" "a").2 ⟨⟨default, 20, ["t"], false⟩, rfl, by decide⟩, fun there => ?_, size⟩
  obtain ⟨e, here, tagged⟩ := (mem_iff "u" "a").1 there
  cases here
  exact absurd tagged (by decide)

end ResponseCache.Store
