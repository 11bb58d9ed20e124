import Mathlib.Order.Basic
import ResponseCache.Lru.Basic

/-!
# A list in order of touches

`Recency` is the plain account of a bounded cache: a list of entries from the least to the most recently touched one,
and counters that are natural numbers. A `Call` is an operation with its arguments, and `Lru.run` and `Recency.run`
carry out calls on a cache and on its account.

Every account fits its capacity, and what it counts is bounded by its touches (`Sound.call`).
-/

namespace ResponseCache.Lru

open Std (TransOrd LawfulEqOrd)

/-- The entries of a cache in order of their touches, the latest last, and what was counted since the last reset. -/
structure Recency (K V : Type) where
  entries : List (K × V)
  capacity : Nat
  hits : Nat := 0
  misses : Nat := 0
  evictions : Nat := 0
  /-- How often an entry was touched, from the beginning on. -/
  touches : Nat := 0

namespace Recency

variable {K V : Type} [DecidableEq K]

/-- An empty cache. -/
def ofCapacity (capacity : Nat) : Recency K V := { entries := [], capacity := capacity }

/-- The value of a key. -/
def find? (r : Recency K V) (k : K) : Option V := r.entries.lookup k

/-- Takes a key out. -/
def erase (r : Recency K V) (k : K) : Recency K V := { r with entries := r.entries.filter (·.1 != k) }

/-- Puts a key with its value at the end, wherever it stood. -/
def touch (r : Recency K V) (k : K) (v : V) : Recency K V :=
  { r with entries := (r.erase k).entries ++ [(k, v)], touches := r.touches + 1 }

/-- Evicts the first `n` entries. -/
def evict (r : Recency K V) (n : Nat) : Recency K V :=
  { r with entries := r.entries.drop n, evictions := r.evictions + (r.entries.take n).length }

def get (r : Recency K V) (k : K) : Option V × Recency K V :=
  match r.find? k with
  | some v => (some v, { r.touch k v with hits := r.hits + 1 })
  | none => (none, { r with misses := r.misses + 1 })

/-- A new key in a full cache costs the head of the list. -/
def insert (r : Recency K V) (k : K) (v : V) : Option (K × V) × Recency K V :=
  if (r.find? k).isNone ∧ r.capacity ≤ r.entries.length then (r.entries.head?, (r.evict 1).touch k v)
  else (none, r.touch k v)

/-- The entries beyond the new capacity are evicted, the first ones first; no capacity at all is refused. -/
def resize (r : Recency K V) (capacity : Nat) : Except CacheError (List (K × V)) × Recency K V :=
  if capacity = 0 then (.error (.invalidCapacity capacity), r)
  else
    let excess := r.entries.length - capacity
    (.ok (r.entries.take excess), { r.evict excess with capacity := capacity })

end Recency

/-! ## Calls -/

/-- An operation on a bounded cache with its arguments. -/
inductive Call (K V : Type) where
  | insert (k : K) (v : V)
  | get (k : K)
  | peek (k : K)
  | contains (k : K)
  | remove (k : K)
  | clear
  | resize (capacity : Nat)
  | resetStats

/-- What a call answers. -/
abbrev Call.Result {K V : Type} : Call K V → Type
  | insert _ _ => Option (K × V)
  | get _ => Option V
  | peek _ => Option V
  | contains _ => Bool
  | remove _ => Option V
  | clear => Unit
  | resize _ => Except CacheError (List (K × V))
  | resetStats => Unit

/-- A call with its answer. -/
abbrev Answer (K V : Type) := (call : Call K V) × call.Result

section Runs

variable {K V : Type} [Ord K]

/-- Carries out a call. -/
def call (c : Lru K V) : (call : Call K V) → call.Result × Lru K V
  | .insert k v => c.insert k v
  | .get k => c.get k
  | .peek k => (c.peek? k, c)
  | .contains k => (c.contains k, c)
  | .remove k => c.remove k
  | .clear => ((), c.clear)
  | .resize capacity =>
    match c.resize capacity with
    | .ok (evicted, c) => (.ok evicted, c)
    | .error e => (.error e, c)
  | .resetStats => ((), c.resetStats)

/-- Carries out calls one after the other. -/
def run (c : Lru K V) : List (Call K V) → List (Answer K V) × Lru K V
  | [] => ([], c)
  | call :: calls =>
    let (result, c) := c.call call
    let (answers, c) := c.run calls
    (⟨call, result⟩ :: answers, c)

namespace Recency

variable [DecidableEq K]

/-- What a call answers by the account. -/
def call (r : Recency K V) : (call : Call K V) → call.Result × Recency K V
  | .insert k v => r.insert k v
  | .get k => r.get k
  | .peek k => (r.find? k, r)
  | .contains k => ((r.find? k).isSome, r)
  | .remove k => (r.find? k, r.erase k)
  | .clear => ((), { r with entries := [] })
  | .resize capacity => r.resize capacity
  | .resetStats => ((), { r with hits := 0, misses := 0, evictions := 0 })

/-- What calls answer by the account, one after the other. -/
def run (r : Recency K V) : List (Call K V) → List (Answer K V) × Recency K V
  | [] => ([], r)
  | call :: calls =>
    let (result, r) := r.call call
    let (answers, r) := r.run calls
    (⟨call, result⟩ :: answers, r)

end Recency

end Runs

/-! ## Bounds of the account -/

namespace Recency

variable {K V : Type} [DecidableEq K] {r : Recency K V}

theorem length_erase_le (k : K) : (r.erase k).entries.length ≤ r.entries.length := List.length_filter_le _ _

theorem length_erase_lt {k : K} (h : (r.find? k).isSome) : (r.erase k).entries.length < r.entries.length := by
  obtain ⟨v, hv⟩ := Option.isSome_iff_exists.1 h
  refine List.length_filter_lt_length_iff_exists.2 ⟨(k, v), ?_, by simp⟩
  obtain ⟨l₁, l₂, hl, -⟩ := List.lookup_eq_some_iff.1 hv
  rw [hl]
  exact List.mem_append_right _ List.mem_cons_self

theorem erase_of_find?_eq_none {k : K} (h : r.find? k = none) : r.erase k = r := by
  have : r.entries.filter (·.1 != k) = r.entries :=
    List.filter_eq_self.2 fun p mem => bne_iff_ne.2 fun e => by simpa [e] using List.lookup_eq_none_iff.1 h p mem
  rw [erase, this]

theorem find?_evict {k : K} (h : r.find? k = none) (n : Nat) : (r.evict n).find? k = none :=
  List.lookup_eq_none_iff.2 fun p mem => List.lookup_eq_none_iff.1 h p (List.mem_of_mem_drop mem)

theorem touches_insert (r : Recency K V) (k : K) (v : V) : (r.insert k v).2.touches = r.touches + 1 := by
  unfold Recency.insert
  split <;> rfl

theorem capacity_insert (r : Recency K V) (k : K) (v : V) : (r.insert k v).2.capacity = r.capacity := by
  unfold Recency.insert
  split <;> rfl

/-- A write is no look-up. -/
theorem looks_insert (r : Recency K V) (k : K) (v : V) :
    (r.insert k v).2.hits = r.hits ∧ (r.insert k v).2.misses = r.misses := by
  unfold Recency.insert
  split <;> exact ⟨rfl, rfl⟩

/-- A write leaves the key, and of the other entries all or all but the first one. -/
theorem entries_insert (r : Recency K V) (k : K) (v : V) : (r.insert k v).2.entries =
    (r.entries.drop (if (r.find? k).isNone ∧ r.capacity ≤ r.entries.length then 1 else 0)).filter (·.1 != k) ++
      [(k, v)] := by
  unfold Recency.insert
  split <;> rfl

/-- The ways of an insertion: the key is there, there is room for it, or the head has to go. -/
theorem insert_cases (pos : 0 < r.capacity) (k : K) (v : V) :
    ((r.find? k).isSome ∧ r.insert k v = (none, r.touch k v)) ∨
    (r.find? k = none ∧ r.entries.length < r.capacity ∧ r.insert k v = (none, r.touch k v)) ∨
    ∃ p rest, r.find? k = none ∧ r.capacity ≤ r.entries.length ∧ r.entries = p :: rest ∧
      r.insert k v = (some p, (r.evict 1).touch k v) := by
  cases found : r.find? k with
  | some w => exact Or.inl ⟨rfl, by simp [Recency.insert, found]⟩
  | none =>
    by_cases full : r.capacity ≤ r.entries.length
    · cases list : r.entries with
      | nil =>
        rw [list] at full
        exact absurd full (Nat.not_le.2 pos)
      | cons p rest =>
        refine Or.inr (Or.inr ⟨p, rest, rfl, list ▸ full, rfl, ?_⟩)
        rw [Recency.insert, found, if_pos ⟨rfl, full⟩, list]
        rfl
    · exact Or.inr (Or.inl ⟨rfl, Nat.lt_of_not_le full, by simp [Recency.insert, full]⟩)

omit [DecidableEq K] in
theorem evict_zero : r.evict 0 = r := by simp [evict]

omit [DecidableEq K] in
theorem evict_evict (m n : Nat) : (r.evict m).evict n = r.evict (m + n) := by
  have : (r.entries.take m).length + ((r.entries.drop m).take n).length = (r.entries.take (m + n)).length := by
    rw [List.length_take, List.length_take, List.length_take, List.length_drop]
    omega
  simp only [evict, List.drop_drop, Nat.add_assoc, this]

/-- What holds of every account: it fits its capacity, and neither hits nor evictions outnumber the touches, even if
what is still there is added to the evictions. -/
structure Sound (r : Recency K V) : Prop where
  capacity_pos : 0 < r.capacity
  length_le : r.entries.length ≤ r.capacity
  hits_le : r.hits ≤ r.touches
  evictions_le : r.evictions + r.entries.length ≤ r.touches

omit [DecidableEq K] in
theorem Sound.ofCapacity {capacity : Nat} (pos : 0 < capacity) : (ofCapacity capacity : Recency K V).Sound :=
  ⟨pos, Nat.zero_le _, Nat.le_refl _, Nat.le_refl _⟩

/-- A touch, if afterwards there is still room. -/
theorem Sound.touch (sound : r.Sound) {k : K} (v : V) (room : (r.erase k).entries.length < r.capacity) :
    (r.touch k v).Sound := by
  have := length_erase_le (r := r) k
  obtain ⟨pos, -, hits_le, evictions_le⟩ := sound
  constructor <;> simp only [Recency.touch, List.length_append, List.length_singleton] <;> omega

omit [DecidableEq K] in
theorem Sound.evict (sound : r.Sound) (n : Nat) : (r.evict n).Sound := by
  obtain ⟨pos, length_le, hits_le, evictions_le⟩ := sound
  constructor <;> simp only [Recency.evict, List.length_drop, List.length_take] <;> omega

theorem Sound.insert (sound : r.Sound) (k : K) (v : V) : (r.insert k v).2.Sound := by
  have pos := sound.capacity_pos
  have length_le := sound.length_le
  rcases r.insert_cases pos k v with ⟨present, eq⟩ | ⟨-, room, eq⟩ | ⟨p, rest, -, full, -, eq⟩
  · rw [eq]
    exact sound.touch v (Nat.lt_of_lt_of_le (length_erase_lt present) length_le)
  · rw [eq]
    exact sound.touch v (Nat.lt_of_le_of_lt (length_erase_le k) room)
  · rw [eq]
    refine (sound.evict 1).touch v (Nat.lt_of_le_of_lt (length_erase_le k) ?_)
    simp only [Recency.evict, List.length_drop]
    omega

theorem Sound.call (sound : r.Sound) (call : Call K V) : (r.call call).2.Sound := by
  cases call with
  | insert k v => exact sound.insert k v
  | get k =>
    simp only [Recency.call, Recency.get]
    split
    · next v found =>
      have present : (r.find? k).isSome := by rw [found]; rfl
      obtain ⟨pos, length_le, -, evictions_le⟩ :=
        sound.touch v (Nat.lt_of_lt_of_le (length_erase_lt present) sound.length_le)
      exact ⟨pos, length_le, Nat.succ_le_succ sound.hits_le, evictions_le⟩
    · exact ⟨sound.capacity_pos, sound.length_le, sound.hits_le, sound.evictions_le⟩
  | remove k =>
    have := length_erase_le (r := r) k
    exact ⟨sound.capacity_pos, Nat.le_trans this sound.length_le, sound.hits_le,
      Nat.le_trans (Nat.add_le_add_left this _) sound.evictions_le⟩
  | clear =>
    exact ⟨sound.capacity_pos, Nat.zero_le _, sound.hits_le, Nat.le_trans (Nat.le_add_right _ _) sound.evictions_le⟩
  | resize capacity =>
    simp only [Recency.call, Recency.resize]
    split
    · exact sound
    · next pos =>
      obtain ⟨-, -, hits_le, evictions_le⟩ := sound.evict (r.entries.length - capacity)
      refine ⟨Nat.pos_of_ne_zero pos, ?_, hits_le, evictions_le⟩
      simp only [Recency.evict, List.length_drop]
      omega
  | resetStats =>
    exact ⟨sound.capacity_pos, sound.length_le, Nat.zero_le _,
      Nat.le_trans (Nat.add_le_add_right (Nat.zero_le _) _) sound.evictions_le⟩
  | peek | contains => exact sound

/-- No call takes touches back. -/
theorem touches_le_call (r : Recency K V) (call : Call K V) : r.touches ≤ (r.call call).2.touches := by
  cases call with
  | insert k v =>
    rw [Recency.call, touches_insert]
    exact Nat.le_succ _
  | get k =>
    simp only [Recency.call, Recency.get]
    split
    · exact Nat.le_succ _
    · exact Nat.le_refl _
  | resize capacity =>
    simp only [Recency.call, Recency.resize]
    split <;> exact Nat.le_refl _
  | peek | contains | remove | clear | resetStats => exact Nat.le_refl _

theorem touches_le_run : ∀ (r : Recency K V) (calls : List (Call K V)), r.touches ≤ (r.run calls).2.touches
  | _, [] => Nat.le_refl _
  | r, call :: calls => Nat.le_trans (touches_le_call r call) (touches_le_run _ calls)

end Recency

end ResponseCache.Lru
