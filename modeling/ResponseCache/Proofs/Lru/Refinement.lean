import ResponseCache.Proofs.Lru.Coherent
import ResponseCache.Proofs.Lru.Recency
import ResponseCache.Proofs.Words

/-!
# A bounded cache is a list in order of touches

`Represents` ties a cache to its account. Every operation keeps the tie and answers as the account says
(`Represents.call`), so a cache that starts empty answers every sequence of calls as the account does
(`run_eq_account`), as long as its clock of touches does not run over.

The counters of a cache are 64-bit words; hits and evictions never outnumber the touches, so they are exact.
-/

namespace ResponseCache.Lru

open Std (TreeMap TransOrd LawfulEqOrd)

variable {K V : Type} [Ord K] [DecidableEq K]

/-- A cache and its account: the same entries in the same order, and the same numbers as words. -/
structure Represents (c : Lru K V) (r : Recency K V) : Prop where
  coherent : c.Coherent
  entries : c.toList = r.entries
  capacity : c.capacity = r.capacity
  tick : c.tick = .ofNat r.touches
  hits : c.stats.hits = .ofNat r.hits
  misses : c.stats.misses = .ofNat r.misses
  evictions : c.stats.evictions = .ofNat r.evictions

theorem lookup_eq_some_iff {α β : Type} [BEq α] [LawfulBEq α] {l : List (α × β)}
    (nodup : (l.map (·.1)).Nodup) {a : α} {b : β} : l.lookup a = some b ↔ (a, b) ∈ l := by
  induction l with
  | nil => simp
  | cons p l ih =>
    obtain ⟨a', b'⟩ := p
    rw [List.map_cons, List.nodup_cons] at nodup
    by_cases h : a = a'
    · subst h
      have : (a, b) ∉ l := fun mem => nodup.1 (List.mem_map.2 ⟨_, mem, rfl⟩)
      simp [this, eq_comm]
    · rw [List.lookup_cons, beq_false_of_ne h]
      simp [h, ih nodup.2]

namespace Represents

variable [TransOrd K] [LawfulEqOrd K] {c : Lru K V} {r : Recency K V} (ties : Represents c r)
include ties

omit [TransOrd K] [LawfulEqOrd K] in
theorem peek?_eq (k : K) : c.peek? k = r.find? k := by
  refine Option.ext fun v => ?_
  rw [Recency.find?, ← ties.entries, lookup_eq_some_iff ties.coherent.nodup_keys, ties.coherent.mem_toList]

omit [DecidableEq K] in
theorem length : c.size = r.entries.length := by rw [← ties.entries, ties.coherent.length_toList]

omit [DecidableEq K] [TransOrd K] [LawfulEqOrd K] in
theorem nodup_keys : (r.entries.map (·.1)).Nodup := by
  rw [← ties.entries]
  exact ties.coherent.nodup_keys

/-- **A touch** of a present key. -/
theorem restamp {k : K} {node : Node V} (here : c.nodes[k]? = some node) (v : V) (room : r.touches + 1 < 2 ^ 64) :
    Represents (c.restamp k node v) (r.touch k v) := by
  have tick : c.tick < c.tick + 1 := by rw [ties.tick]; exact Words.lt_succ room
  obtain ⟨coherent, list⟩ := ties.coherent.restamp (v := v) here tick
  refine ⟨coherent, ?_, ties.capacity, ?_, ties.hits, ties.misses, ties.evictions⟩
  · rw [list, ties.entries]; rfl
  · show c.tick + 1 = .ofNat (r.touches + 1)
    rw [ties.tick, Words.ofNat_succ]

/-- A new key, for which there is room. -/
theorem append {k : K} (absent : c.peek? k = none) (v : V) (room : r.touches + 1 < 2 ^ 64) :
    Represents
      { c with
        tick := c.tick + 1
        order := c.order.insert (c.tick + 1) k
        nodes := c.nodes.insert k ⟨v, c.tick + 1⟩ } (r.touch k v) := by
  rw [peek?_eq_none_iff] at absent
  have tick : c.tick < c.tick + 1 := by rw [ties.tick]; exact Words.lt_succ room
  set d : Lru K V := { c with
    tick := c.tick + 1
    order := c.order.insert (c.tick + 1) k
    nodes := c.nodes.insert k ⟨v, c.tick + 1⟩ }
  have appended : Appended c d k v := ⟨rfl, fun k' => TreeMap.getElem?_insert, rfl⟩
  have gone : r.erase k = r := Recency.erase_of_find?_eq_none (by rw [← ties.peek?_eq, peek?_eq_none_iff.2 absent])
  refine ⟨appended.coherent ties.coherent absent tick, ?_, ties.capacity, ?_, ties.hits, ties.misses, ties.evictions⟩
  · rw [appended.toList ties.coherent absent tick, ties.entries, Recency.touch, gone]
  · show c.tick + 1 = .ofNat (r.touches + 1)
    rw [ties.tick, Words.ofNat_succ]

/-- **What is evicted** is the head. -/
theorem evict {k : K} {v : V} {rest : List (K × V)} (h : r.entries = (k, v) :: rest) :
    ∃ d, c.evict = (some (k, v), d) ∧ Represents d (r.evict 1) := by
  obtain ⟨node, here, hd⟩ := ties.coherent.evict_cons (ties.entries.trans h)
  have gone := ties.coherent.toList_discard here
  rw [ties.entries, h] at gone
  have others : ∀ p ∈ rest, p.1 != k := fun p mem => by
    have := ties.coherent.pairwise_keys
    rw [ties.entries, h, List.pairwise_cons] at this
    exact bne_iff_ne.2 (this.1 p mem).symm
  rw [List.filter_cons_of_neg (by simp), List.filter_eq_self.2 others] at gone
  refine ⟨_, hd, (ties.coherent.discard here).of_maps rfl rfl rfl, ?_, ties.capacity, ties.tick, ties.hits,
    ties.misses, ?_⟩
  · exact gone.trans (by rw [Recency.evict, h]; rfl)
  · show c.stats.evictions + 1 = .ofNat (r.evictions + (r.entries.take 1).length)
    rw [ties.evictions, h, ← Words.ofNat_succ]; rfl

/-! ### One lemma for each operation -/

theorem insert (pos : 0 < r.capacity) (k : K) (v : V) (room : r.touches + 1 < 2 ^ 64) :
    (c.insert k v).1 = (r.insert k v).1 ∧ Represents (c.insert k v).2 (r.insert k v).2 := by
  have found := ties.peek?_eq k
  rw [Lru.insert]
  rcases r.insert_cases pos k v with ⟨present, eq⟩ | ⟨absent, below, eq⟩ | ⟨⟨k', w⟩, rest, absent, full, list, eq⟩
  · rw [← found, peek?, Option.isSome_map, Option.isSome_iff_exists] at present
    obtain ⟨node, here⟩ := present
    rw [eq, here]
    exact ⟨rfl, ties.restamp here v room⟩
  · rw [absent] at found
    rw [eq, peek?_eq_none_iff.1 found, if_neg (by rw [ties.capacity, ties.length]; exact Nat.not_le.2 below)]
    exact ⟨rfl, ties.append found v room⟩
  · rw [absent] at found
    rw [eq, peek?_eq_none_iff.1 found, if_pos (by rw [ties.capacity, ties.length]; exact full)]
    obtain ⟨d, hd, ties'⟩ := ties.evict list
    have tick : d.tick = c.tick := ties'.tick.trans ties.tick.symm
    have gone : d.peek? k = none := by rw [ties'.peek?_eq, Recency.find?_evict absent]
    have appended := ties'.append gone v room
    rw [tick] at appended
    rw [hd]
    exact ⟨rfl, appended⟩

theorem get (k : K) (room : (r.get k).2.touches < 2 ^ 64) :
    (c.get k).1 = (r.get k).1 ∧ Represents (c.get k).2 (r.get k).2 := by
  have found := ties.peek?_eq k
  rw [Lru.get]
  cases here : c.nodes[k]? with
  | some node =>
    rw [peek?, here, Option.map_some] at found
    simp only [Recency.get, ← found] at room ⊢
    obtain ⟨coherent, entries, capacity, tick, -, misses, evictions⟩ := ties.restamp here node.value room
    refine ⟨trivial, coherent.of_maps rfl rfl rfl, entries, capacity, tick, ?_, misses, evictions⟩
    show c.stats.hits + 1 = .ofNat (r.hits + 1)
    rw [ties.hits, Words.ofNat_succ]
  | none =>
    rw [peek?_eq_none_iff.2 here] at found
    simp only [Recency.get, ← found]
    obtain ⟨coherent, entries, capacity, tick, hits, misses, evictions⟩ := ties
    refine ⟨trivial, coherent.of_maps rfl rfl rfl, entries, capacity, tick, hits, ?_, evictions⟩
    show c.stats.misses + 1 = .ofNat (r.misses + 1)
    rw [misses, Words.ofNat_succ]

theorem remove (k : K) : (c.remove k).1 = r.find? k ∧ Represents (c.remove k).2 (r.erase k) := by
  have found := ties.peek?_eq k
  rw [Lru.remove]
  cases here : c.nodes[k]? with
  | some node =>
    rw [peek?, here, Option.map_some] at found
    refine ⟨found, ties.coherent.discard here, ?_, ties.capacity, ties.tick, ties.hits, ties.misses, ties.evictions⟩
    exact (ties.coherent.toList_discard here).trans (by rw [ties.entries]; rfl)
  | none =>
    rw [peek?_eq_none_iff.2 here] at found
    rw [Recency.erase_of_find?_eq_none found.symm]
    exact ⟨found, ties⟩

omit ties in
/-- Eviction after eviction drops what stands in front, in that order. -/
theorem evictMany : ∀ {n : Nat} {c : Lru K V} {r : Recency K V}, Represents c r → n ≤ r.entries.length →
    ∀ done, (c.evictMany done n).1 = done.reverse ++ r.entries.take n ∧
      Represents (c.evictMany done n).2 (r.evict n)
  | 0, c, r, ties, _, done => ⟨by simp [Lru.evictMany], by rw [Recency.evict_zero]; exact ties⟩
  | n + 1, c, r, ties, le, done => by
    cases list : r.entries with
    | nil => simp [list] at le
    | cons p rest =>
      obtain ⟨k, v⟩ := p
      obtain ⟨d, hd, ties'⟩ := ties.evict list
      have le' : n ≤ (r.evict 1).entries.length := by
        rw [Recency.evict, List.length_drop]
        omega
      obtain ⟨same, ties''⟩ := evictMany ties' le' ((k, v) :: done)
      rw [Lru.evictMany, hd]
      refine ⟨?_, ?_⟩
      · rw [same, Recency.evict, list]
        simp
      · rw [Recency.evict_evict, Nat.add_comm] at ties''
        exact ties''

theorem resize (capacity : Nat) :
    (c.call (.resize capacity)).1 = (r.resize capacity).1 ∧
      Represents (c.call (.resize capacity)).2 (r.resize capacity).2 := by
  by_cases pos : 0 < capacity
  · have resized : Represents { c with capacity := capacity, capacity_pos := pos } { r with capacity := capacity } :=
      ⟨ties.coherent.of_maps rfl rfl rfl, ties.entries, rfl, ties.tick, ties.hits, ties.misses, ties.evictions⟩
    have excess : c.size - capacity ≤ r.entries.length := by rw [ties.length]; exact Nat.sub_le _ _
    obtain ⟨same, ties'⟩ := resized.evictMany excess []
    simp only [Lru.call, Lru.resize, dif_pos pos, Recency.resize, if_neg (Nat.pos_iff_ne_zero.1 pos), ← ties.length]
    exact ⟨congrArg Except.ok same, ties'⟩
  · simp only [Lru.call, Lru.resize, dif_neg pos, Recency.resize, if_pos (Nat.eq_zero_of_not_pos pos)]
    exact ⟨trivial, ties⟩

/-- **Every call** is answered as by the account, and keeps the tie. -/
theorem call (pos : 0 < r.capacity) (call : Call K V) (room : (r.call call).2.touches < 2 ^ 64) :
    (c.call call).1 = (r.call call).1 ∧ Represents (c.call call).2 (r.call call).2 := by
  cases call with
  | insert k v =>
    rw [Recency.call, Recency.touches_insert] at room
    exact ties.insert pos k v room
  | get k => exact ties.get k room
  | peek k => exact ⟨ties.peek?_eq k, ties⟩
  | contains k =>
    refine ⟨?_, ties⟩
    show c.nodes.contains k = (r.find? k).isSome
    rw [← ties.peek?_eq, peek?, Option.isSome_map, TreeMap.contains_eq_isSome_getElem?]
  | remove k => exact ties.remove k
  | clear =>
    refine ⟨rfl, ⟨?_, ?_⟩, ?_, ties.capacity, ties.tick, ties.hits, ties.misses, ties.evictions⟩
    · simp [Lru.call, clear]
    · simp [Lru.call, clear]
    · rfl
  | resize capacity => exact ties.resize capacity
  | resetStats =>
    exact ⟨rfl, ties.coherent.of_maps rfl rfl rfl, ties.entries, ties.capacity, ties.tick, rfl, rfl, rfl⟩

end Represents

/-! ## Runs -/

variable [TransOrd K] [LawfulEqOrd K]

/-- Calls are answered as by the account, as long as the clock of touches does not run over. -/
theorem Represents.run : ∀ {calls : List (Call K V)} {c : Lru K V} {r : Recency K V}, Represents c r → r.Sound →
    (r.run calls).2.touches < 2 ^ 64 →
      (c.run calls).1 = (r.run calls).1 ∧ Represents (c.run calls).2 (r.run calls).2 ∧ (r.run calls).2.Sound
  | [], _, _, ties, sound, _ => ⟨rfl, ties, sound⟩
  | call :: calls, c, r, ties, sound, room => by
    have now := ties.call sound.capacity_pos call (Nat.lt_of_le_of_lt (Recency.touches_le_run _ calls) room)
    obtain ⟨same, later⟩ := Represents.run now.2 (sound.call call) room
    refine ⟨?_, later⟩
    simp only [Lru.run, Recency.run, now.1, same]

omit [LawfulEqOrd K] [DecidableEq K] in
theorem represents_create {capacity : Nat} (pos : 0 < capacity) :
    ∃ c : Lru K V, create capacity = .ok c ∧ Represents c (.ofCapacity capacity) := by
  refine ⟨⟨∅, ∅, 0, capacity, {}, pos⟩, dif_pos pos, ⟨?_, ?_⟩, ?_, rfl, rfl, rfl, rfl, rfl⟩
  · simp
  · simp
  · rfl

omit [LawfulEqOrd K] [DecidableEq K] in
/-- A cache that was created has room for an entry, and an account. -/
theorem represents_of_create {capacity : Nat} {c : Lru K V} (created : create capacity = .ok c) :
    0 < capacity ∧ Represents c (.ofCapacity capacity) := by
  have pos : 0 < capacity := by
    rw [create] at created
    split at created
    · assumption
    · cases created
  obtain ⟨c', created', ties⟩ := represents_create (K := K) (V := V) pos
  cases created.symm.trans created'
  exact ⟨pos, ties⟩

/-- What can be seen of a cache agrees with an account. Counters are words: of the misses, which are no touches and so
are not bounded by them, the last 64 bits are seen. -/
structure Agrees (c : Lru K V) (r : Recency K V) : Prop where
  entries : c.toList = r.entries
  nodup : (r.entries.map (·.1)).Nodup
  size : c.size = r.entries.length
  capacity : c.capacity = r.capacity
  size_le : c.size ≤ c.capacity
  hits : c.stats.hits.toNat = r.hits
  misses : c.stats.misses.toNat = r.misses % 2 ^ 64
  evictions : c.stats.evictions.toNat = r.evictions
  snapshot : c.snapshot = Stats.snapshot
    { hits := .ofNat r.hits, misses := .ofNat r.misses, evictions := .ofNat r.evictions } r.entries.length r.capacity
  /-- The two maps are inverse to each other. -/
  maps : ∀ (t : UInt64) (k : K), c.order[t]? = some k ↔ ∃ v, c.nodes[k]? = some (Node.mk v t)

omit [DecidableEq K] in
theorem Represents.agrees {c : Lru K V} {r : Recency K V} (ties : Represents c r) (sound : r.Sound)
    (room : r.touches < 2 ^ 64) : Agrees c r where
  entries := ties.entries
  nodup := ties.nodup_keys
  size := ties.length
  capacity := ties.capacity
  size_le := by rw [ties.length, ties.capacity]; exact sound.length_le
  hits := by
    have := sound.hits_le
    rw [ties.hits, Words.toNat_ofNat (by omega)]
  misses := by rw [ties.misses, UInt64.toNat_ofNat']
  evictions := by
    have := sound.evictions_le
    rw [ties.evictions, Words.toNat_ofNat (by omega)]
  snapshot := by
    simp only [Lru.snapshot, Stats.snapshot, Stats.rate, Stats.lookups, ties.hits, ties.misses, ties.evictions,
      ties.length, ties.capacity]
  maps := ties.coherent.order_iff

/-- **A cache that starts empty** answers every sequence of calls as the list in order of touches does, and shows the
same afterwards, as long as the clock of touches does not run over. -/
theorem run_eq_account {capacity : Nat} (pos : 0 < capacity) :
    ∃ c : Lru K V, create capacity = .ok c ∧ ∀ calls : List (Call K V),
      ((Recency.ofCapacity capacity).run calls).2.touches < 2 ^ 64 →
        (c.run calls).1 = ((Recency.ofCapacity capacity).run calls).1 ∧
          Agrees (c.run calls).2 ((Recency.ofCapacity capacity).run calls).2 := by
  obtain ⟨c, created, ties⟩ := represents_create (K := K) (V := V) pos
  refine ⟨c, created, fun calls room => ?_⟩
  obtain ⟨same, ties, sound⟩ := ties.run (.ofCapacity pos) room
  exact ⟨same, ties.agrees sound room⟩

/-- Room for two: the third key costs the one that was not looked up again, and the shrunk cache keeps the newest. -/
theorem run_eq_account_two : ∃ c : Lru Nat Nat, create 2 = .ok c ∧
    (c.run [.insert 1 10, .insert 2 20, .get 1, .insert 3 30, .resize 1, .get 2]).1 =
      [⟨.insert 1 10, none⟩, ⟨.insert 2 20, none⟩, ⟨.get 1, some 10⟩, ⟨.insert 3 30, some (2, 20)⟩,
        ⟨.resize 1, .ok [(1, 10)]⟩, ⟨.get 2, none⟩] := by
  obtain ⟨c, created, agrees⟩ := run_eq_account (K := Nat) (V := Nat) (show 0 < 2 by decide)
  refine ⟨c, created, (agrees _ (by decide)).1.trans rfl⟩

end ResponseCache.Lru
