import ResponseCache.Proofs.Lru.Refinement

/-!
# A larger cache holds what a smaller one holds

Two caches of different capacities are given the same calls. What the smaller one holds the larger one holds too, with
the same values and in the same order of touches, so giving a cache more room never costs a hit.

`Included` says so of the accounts. Inclusion alone does not carry over a write: a larger cache that is full might
evict what the smaller one, with room left, still holds. It is the bound on the difference of their sizes that rules
this out, for removals can leave room in the smaller cache only where they leave it in the larger one
(`Included.erase`). Every call keeps the inclusion (`Included.call`), and so do calls one after the other
(`Included.run`).
-/

namespace ResponseCache.Lru

variable {K V : Type}

namespace Recency

/-- What one account has in the order of another one that has at least as much room. -/
structure Included (r s : Recency K V) : Prop where
  entries : r.entries.Sublist s.entries
  capacity_le : r.capacity ≤ s.capacity
  /-- The larger one is full only if the smaller one is. -/
  room : s.entries.length + r.capacity ≤ r.entries.length + s.capacity
  hits_le : r.hits ≤ s.hits
  looks : r.hits + r.misses = s.hits + s.misses

theorem included_ofCapacity {small large : Nat} (le : small ≤ large) :
    Included (ofCapacity small : Recency K V) (ofCapacity large) where
  entries := List.Sublist.refl []
  capacity_le := le
  room := by simpa [ofCapacity] using le
  hits_le := Nat.le_refl 0
  looks := rfl

variable [DecidableEq K] {r s : Recency K V} {k : K}

/-- Taking a key out shortens the longer list at least as much. -/
theorem length_erase_sublist (sub : r.entries.Sublist s.entries) (k : K) :
    (s.erase k).entries.length + r.entries.length ≤ (r.erase k).entries.length + s.entries.length := by
  have split : ∀ t : Recency K V, t.entries.length = (t.erase k).entries.length + t.entries.countP (·.1 = k) := by
    intro t
    rw [List.length_eq_countP_add_countP (·.1 != k), erase, List.countP_eq_length_filter]
    simp
  have fewer : r.entries.countP (·.1 = k) ≤ s.entries.countP (·.1 = k) := sub.countP_le
  have := split r
  have := split s
  omega

theorem length_touch (r : Recency K V) (k : K) (v : V) :
    (r.touch k v).entries.length = (r.erase k).entries.length + 1 := by
  simp [touch]

/-- A full cache is full again after a write of a new key. -/
theorem length_insert_of_full (pos : 0 < r.capacity) (absent : r.find? k = none) (full : r.capacity ≤ r.entries.length)
    (v : V) : (r.insert k v).2.entries.length = r.entries.length := by
  have others : (r.entries.drop 1).filter (·.1 != k) = r.entries.drop 1 :=
    congrArg entries (erase_of_find?_eq_none (find?_evict absent 1))
  rw [entries_insert, if_pos ⟨by rw [absent]; rfl, full⟩, others]
  simp
  omega

/-- A look-up or a touch is counted once at most for each call. -/
theorem looks_call_le (r : Recency K V) (call : Call K V) :
    (r.call call).2.touches + (r.call call).2.misses ≤ r.touches + r.misses + 1 := by
  cases call with
  | insert k v =>
    have touches := touches_insert r k v
    have looks := looks_insert r k v
    simp only [Recency.call]
    omega
  | get k =>
    simp only [Recency.call, Recency.get]
    split
    · show r.touches + 1 + r.misses ≤ _
      omega
    · show r.touches + (r.misses + 1) ≤ _
      omega
  | resize capacity =>
    simp only [Recency.call, Recency.resize]
    split <;> exact Nat.le_succ _
  | resetStats =>
    show r.touches + 0 ≤ _
    omega
  | peek | contains | remove | clear => exact Nat.le_succ _

theorem looks_run_le (r : Recency K V) (calls : List (Call K V)) :
    (r.run calls).2.touches + (r.run calls).2.misses ≤ r.touches + r.misses + calls.length := by
  induction calls generalizing r with
  | nil => exact Nat.le_refl _
  | cons call calls ih =>
    have here := looks_call_le r call
    have later := ih (r.call call).2
    rw [List.length_cons]
    show ((r.call call).2.run calls).2.touches + ((r.call call).2.run calls).2.misses ≤ _
    omega

namespace Included

variable (included : Included r s)
include included

omit [DecidableEq K] in
theorem misses_le : s.misses ≤ r.misses := by
  have := included.hits_le
  have := included.looks
  omega

theorem erase (k : K) : Included (r.erase k) (s.erase k) where
  entries := included.entries.filter _
  capacity_le := included.capacity_le
  room := by
    have shorter := length_erase_sublist included.entries k
    have room := included.room
    show (s.erase k).entries.length + r.capacity ≤ (r.erase k).entries.length + s.capacity
    omega
  hits_le := included.hits_le
  looks := included.looks

/-- **A touch** of a key in both. -/
theorem touch (k : K) (v : V) : Included (r.touch k v) (s.touch k v) where
  entries := (included.erase k).entries.append (.refl _)
  capacity_le := included.capacity_le
  room := by
    have shorter := length_erase_sublist included.entries k
    have room := included.room
    rw [length_touch, length_touch]
    show (s.erase k).entries.length + 1 + r.capacity ≤ (r.erase k).entries.length + 1 + s.capacity
    omega
  hits_le := included.hits_le
  looks := included.looks

section Keys

variable (nodup : (s.entries.map (·.1)).Nodup)
include nodup

/-- **What the smaller one finds** the larger one finds too. -/
theorem find? {v : V} (found : r.find? k = some v) : s.find? k = some v := by
  have nodup' := nodup.sublist (included.entries.map (·.1))
  unfold Recency.find? at found ⊢
  rw [lookup_eq_some_iff nodup'] at found
  rw [lookup_eq_some_iff nodup]
  exact included.entries.subset found

/-- **A look-up.** A key that only the larger one has goes to its end, where the smaller one has nothing. -/
theorem get (k : K) : Included (r.get k).2 (s.get k).2 := by
  have hits := included.hits_le
  have looks := included.looks
  unfold Recency.get
  cases found : r.find? k with
  | some v =>
    rw [included.find? nodup found]
    obtain ⟨entries, capacity_le, room, -, -⟩ := included.touch k v
    refine ⟨entries, capacity_le, room, ?_, ?_⟩
    · show r.hits + 1 ≤ s.hits + 1
      omega
    · show r.hits + 1 + r.misses = s.hits + 1 + s.misses
      omega
  | none =>
    cases found' : s.find? k with
    | none =>
      refine ⟨included.entries, included.capacity_le, included.room, hits, ?_⟩
      show r.hits + (r.misses + 1) = s.hits + (s.misses + 1)
      omega
    | some v =>
      have erased := included.erase k
      rw [erase_of_find?_eq_none found] at erased
      refine ⟨erased.entries.trans (List.sublist_append_left _ _), included.capacity_le, ?_, ?_, ?_⟩
      · have shorter : (s.erase k).entries.length < s.entries.length := length_erase_lt (by rw [found']; rfl)
        have room := included.room
        have length := length_touch s k v
        show (s.touch k v).entries.length + r.capacity ≤ r.entries.length + s.capacity
        omega
      · show r.hits ≤ s.hits + 1
        omega
      · show r.hits + (r.misses + 1) = s.hits + 1 + s.misses
        omega

/-- **A write.** The larger one evicts only if the smaller one does, and then both lose what stands in front. -/
theorem insert (sound : r.Sound) (sound' : s.Sound) (k : K) (v : V) : Included (r.insert k v).2 (s.insert k v).2 := by
  have room := included.room
  by_cases full : (r.find? k).isNone ∧ r.capacity ≤ r.entries.length
  · constructor
    · rw [entries_insert, entries_insert, if_pos full]
      refine (List.Sublist.filter _ ?_).append (.refl _)
      split
      · exact included.entries.drop 1
      · exact (List.drop_sublist 1 _).trans included.entries
    · rw [capacity_insert, capacity_insert]
      exact included.capacity_le
    · have again := length_insert_of_full sound.capacity_pos (Option.isNone_iff_eq_none.1 full.1) full.2 v
      have fits := (sound'.insert k v).length_le
      rw [capacity_insert] at fits
      rw [capacity_insert, capacity_insert]
      omega
    · rw [(looks_insert r k v).1, (looks_insert s k v).1]
      exact included.hits_le
    · rw [(looks_insert r k v).1, (looks_insert s k v).1, (looks_insert r k v).2, (looks_insert s k v).2]
      exact included.looks
  · -- the smaller one has the key, or room for it
    have full' : ¬ ((s.find? k).isNone ∧ s.capacity ≤ s.entries.length) := by
      rintro ⟨absent', full'⟩
      apply full
      refine ⟨?_, by omega⟩
      cases found : r.find? k with
      | none => rfl
      | some w =>
        rw [included.find? nodup found] at absent'
        cases absent'
    unfold Recency.insert
    rw [if_neg full, if_neg full']
    exact included.touch k v

/-- **Every call** that leaves the capacities as they are. -/
theorem call (sound : r.Sound) (sound' : s.Sound) (call : Call K V) (fixed : ∀ n, call ≠ .resize n) :
    Included (r.call call).2 (s.call call).2 := by
  cases call with
  | insert k v => exact included.insert nodup sound sound' k v
  | get k => exact included.get nodup k
  | remove k => exact included.erase k
  | clear =>
    refine ⟨.refl [], included.capacity_le, ?_, included.hits_le, included.looks⟩
    have := included.capacity_le
    simpa [Recency.call] using this
  | resize n => exact absurd rfl (fixed n)
  | resetStats => exact ⟨included.entries, included.capacity_le, included.room, Nat.le_refl 0, rfl⟩
  | peek | contains => exact included

end Keys

end Included

end Recency

/-! ## Runs -/

variable [Ord K] [Std.TransOrd K] [Std.LawfulEqOrd K] [DecidableEq K]

/-- Calls keep the inclusion, one after the other. -/
theorem Recency.Included.run {calls : List (Call K V)} : ∀ {c d : Lru K V} {r s : Recency K V}, Recency.Included r s →
    Represents c r → Represents d s → r.Sound → s.Sound → (∀ n, Call.resize n ∉ calls) →
    (s.run calls).2.touches < 2 ^ 64 → (r.run calls).2.touches < 2 ^ 64 →
    Recency.Included (r.run calls).2 (s.run calls).2 := by
  induction calls with
  | nil => intro c d r s included _ _ _ _ _ _ _; exact included
  | cons call calls ih =>
    intro c d r s included ties ties' sound sound' fixed few' few
    have later := ties.call sound.capacity_pos call (Nat.lt_of_le_of_lt (touches_le_run _ calls) few)
    have later' := ties'.call sound'.capacity_pos call (Nat.lt_of_le_of_lt (touches_le_run _ calls) few')
    have kept := included.call ties'.nodup_keys sound sound' call fun n eq => fixed n (eq ▸ List.mem_cons_self)
    have fixed' : ∀ n, Call.resize n ∉ calls := fun n mem => fixed n (List.mem_cons_of_mem _ mem)
    exact ih kept later.2 later'.2 (sound.call call) (sound'.call call) fixed' few' few

/-- **More room never costs a hit.** Two empty caches are given the same calls, none of which changes their capacities.
Then what the smaller one holds the larger one holds, in the same order and with the same values, and the larger one has
counted at least as many hits and at most as many misses. -/
theorem larger_holds_smaller {small large : Nat} (pos : 0 < small) (le : small ≤ large) :
    ∃ c d : Lru K V, create small = .ok c ∧ create large = .ok d ∧ ∀ calls : List (Call K V),
      calls.length < 2 ^ 64 → (∀ n, Call.resize n ∉ calls) →
        (c.run calls).2.toList.Sublist (d.run calls).2.toList ∧
        (∀ k v, (c.run calls).2.peek? k = some v → (d.run calls).2.peek? k = some v) ∧
        (c.run calls).2.stats.hits.toNat ≤ (d.run calls).2.stats.hits.toNat ∧
        (d.run calls).2.stats.misses.toNat ≤ (c.run calls).2.stats.misses.toNat := by
  obtain ⟨c, created, ties⟩ := represents_create (K := K) (V := V) pos
  obtain ⟨d, created', ties'⟩ := represents_create (K := K) (V := V) (Nat.lt_of_lt_of_le pos le)
  refine ⟨c, d, created, created', ?_⟩
  intro calls few fixed
  have looks := Recency.looks_run_le (.ofCapacity small : Recency K V) calls
  have looks' := Recency.looks_run_le (.ofCapacity large : Recency K V) calls
  simp only [Recency.ofCapacity] at looks looks'
  have room : ((Recency.ofCapacity small : Recency K V).run calls).2.touches < 2 ^ 64 := by
    simp only [Recency.ofCapacity]
    omega
  have room' : ((Recency.ofCapacity large : Recency K V).run calls).2.touches < 2 ^ 64 := by
    simp only [Recency.ofCapacity]
    omega
  have sound : (Recency.ofCapacity small : Recency K V).Sound := .ofCapacity pos
  have sound' : (Recency.ofCapacity large : Recency K V).Sound := .ofCapacity (Nat.lt_of_lt_of_le pos le)
  have included := (Recency.included_ofCapacity le).run ties ties' sound sound' fixed room' room
  obtain ⟨-, after, fits⟩ := ties.run sound room
  obtain ⟨-, after', fits'⟩ := ties'.run sound' room'
  have shows := after.agrees fits room
  have shows' := after'.agrees fits' room'
  simp only [Recency.ofCapacity] at *
  refine ⟨?_, ?_, ?_, ?_⟩
  · rw [shows.entries, shows'.entries]
    exact included.entries
  · intro k v found
    rw [after.peek?_eq] at found
    rw [after'.peek?_eq]
    exact included.find? after'.nodup_keys found
  · rw [shows.hits, shows'.hits]
    exact included.hits_le
  · rw [shows.misses, shows'.misses, Nat.mod_eq_of_lt (by omega), Nat.mod_eq_of_lt (by omega)]
    exact included.misses_le

/-- The larger one finds a key that the smaller one has evicted, so it evicts another one next. What the smaller one has
is there all the same. -/
theorem larger_holds_smaller_reordered :
    let calls : List (Call Nat Nat) := [.insert 1 10, .insert 2 20, .get 1, .insert 3 30]
    ∃ c d : Lru Nat Nat, create 1 = .ok c ∧ create 2 = .ok d ∧ (c.run calls).2.toList = [(3, 30)] ∧
      (d.run calls).2.toList = [(1, 10), (3, 30)] ∧
      (c.run calls).2.stats.hits.toNat ≤ (d.run calls).2.stats.hits.toNat := by
  intro calls
  obtain ⟨c, d, created, created', holds⟩ := larger_holds_smaller (K := Nat) (V := Nat) (show 0 < 1 by decide)
    (show 1 ≤ 2 by decide)
  obtain ⟨-, -, hits, -⟩ := holds calls (by decide) (by simp [calls])
  obtain ⟨pos, ties⟩ := represents_of_create created
  obtain ⟨pos', ties'⟩ := represents_of_create created'
  have few : ((Recency.ofCapacity 1).run calls).2.touches < 2 ^ 64 := by decide
  have few' : ((Recency.ofCapacity 2).run calls).2.touches < 2 ^ 64 := by decide
  obtain ⟨-, after, -⟩ := ties.run (.ofCapacity pos) few
  obtain ⟨-, after', -⟩ := ties'.run (.ofCapacity pos') few'
  exact ⟨c, d, created, created', after.entries, after'.entries, hits⟩

end ResponseCache.Lru
