import Mathlib.Data.List.Basic
import ResponseCache.Lru.Basic

/-!
# The two maps of a bounded cache agree

`order` finds the key of a tick and `nodes` the tick of a key. Every operation changes both, and `Coherent` says that
they stay inverse to each other and that no tick is ahead of the clock of touches.

Under it the entries, from the least to the most recently touched one, behave as a list: a touch moves an entry to the
end (`Coherent.restamp`), a removal takes it out (`Coherent.toList_discard`), a new entry stands last
(`Appended.toList`), and what is evicted is the head (`Coherent.evict_cons`).
-/

namespace ResponseCache.Lru

open Std (TreeMap TransCmp LawfulEqCmp ReflCmp OrientedCmp TransOrd LawfulEqOrd)

/-! ## Sorted lists of maps -/

section Maps

variable {α β : Type} {cmp : α → α → Ordering}

theorem nodup_of_sorted [ReflCmp cmp] {l : List (α × β)} (sorted : l.Pairwise fun a b => cmp a.1 b.1 = .lt) :
    l.Nodup := by
  refine sorted.imp fun {a b} h e => ?_
  rw [e, show cmp b.1 b.1 = .eq from ReflCmp.compare_self] at h
  cases h

/-- The list of a map is the one sorted list of its pairs. -/
theorem toList_eq_of_sorted [TransCmp cmp] [LawfulEqCmp cmp] {m : TreeMap α β cmp} {l : List (α × β)}
    (sorted : l.Pairwise fun a b => cmp a.1 b.1 = .lt) (mem : ∀ a b, (a, b) ∈ l ↔ m[a]? = some b) : m.toList = l := by
  have ordered : m.toList.Pairwise fun a b => cmp a.1 b.1 = .lt := TreeMap.ordered_keys_toList
  have perm : m.toList.Perm l := by
    refine (List.perm_ext_iff_of_nodup (nodup_of_sorted ordered) (nodup_of_sorted sorted)).2 ?_
    rintro ⟨a, b⟩
    rw [TreeMap.mem_toList_iff_getElem?_eq_some, mem]
  refine perm.eq_of_pairwise (fun a b _ _ h h' => ?_) ordered sorted
  rw [show cmp a.1 b.1 = (cmp b.1 a.1).swap from OrientedCmp.eq_swap, h'] at h
  cases h

end Maps

section Ticks

variable {K : Type} {order : TreeMap UInt64 K} {tick : UInt64}

theorem toList_erase (order : TreeMap UInt64 K) (tick : UInt64) :
    (order.erase tick).toList = order.toList.filter (·.1 != tick) := by
  refine toList_eq_of_sorted (TreeMap.ordered_keys_toList.filter _) fun a b => ?_
  simp only [List.mem_filter, TreeMap.mem_toList_iff_getElem?_eq_some, TreeMap.getElem?_erase, bne_iff_ne, ne_eq,
    Std.compare_eq_iff_eq]
  by_cases h : tick = a
  · simp [h]
  · simp [h, Ne.symm h]

/-- A tick ahead of all others goes to the end. -/
theorem toList_insert_of_lt (ahead : ∀ t k, order[t]? = some k → t < tick) (k : K) :
    (order.insert tick k).toList = order.toList ++ [(tick, k)] := by
  refine toList_eq_of_sorted ?_ fun a b => ?_
  · refine List.pairwise_append.2 ⟨TreeMap.ordered_keys_toList, List.pairwise_singleton _ _, fun p hp q hq => ?_⟩
    obtain ⟨t, k'⟩ := p
    rw [List.mem_singleton.1 hq, Std.compare_eq_lt]
    exact ahead t k' (TreeMap.mem_toList_iff_getElem?_eq_some.1 hp)
  · simp only [List.mem_append, TreeMap.mem_toList_iff_getElem?_eq_some, List.mem_singleton, Prod.mk.injEq,
      TreeMap.getElem?_insert, Std.compare_eq_iff_eq]
    by_cases h : tick = a
    · subst h
      have : ∀ k', order[tick]? ≠ some k' := fun k' h => absurd (ahead _ _ h) (by simp)
      simp [this, eq_comm]
    · simp [h, Ne.symm h]

end Ticks

/-! ## Coherence -/

variable {K V : Type} [Ord K]

/-- **The two maps are inverse to each other**, and no tick is ahead of the latest touch. -/
structure Coherent (c : Lru K V) : Prop where
  order_iff : ∀ (t : UInt64) (k : K), c.order[t]? = some k ↔ ∃ v, c.nodes[k]? = some (Node.mk v t)
  le_tick : ∀ (t : UInt64) (k : K), c.order[t]? = some k → t ≤ c.tick

theorem peek?_eq_some_iff {c : Lru K V} {k : K} {v : V} : c.peek? k = some v ↔ ∃ t, c.nodes[k]? = some ⟨v, t⟩ := by
  simp only [peek?, Option.map_eq_some_iff]
  constructor
  · rintro ⟨node, h, rfl⟩
    exact ⟨node.tick, h⟩
  · rintro ⟨t, h⟩
    exact ⟨_, h, rfl⟩

theorem peek?_eq_none_iff {c : Lru K V} {k : K} : c.peek? k = none ↔ c.nodes[k]? = none := by
  rw [peek?, Option.map_eq_none_iff]

/-- The cache without a key, `node` being what it holds of it. -/
def discard (c : Lru K V) (k : K) (node : Node V) : Lru K V :=
  { c with nodes := c.nodes.erase k, order := c.order.erase node.tick }

/-- What `d` becomes when a key is touched that it does not hold: the key gets the next tick. -/
structure Appended (d e : Lru K V) (k : K) (v : V) : Prop where
  order : e.order = d.order.insert (d.tick + 1) k
  nodes : ∀ k', e.nodes[k']? = if compare k k' = .eq then some (Node.mk v (d.tick + 1)) else d.nodes[k']?
  tick : e.tick = d.tick + 1

namespace Coherent

variable {c : Lru K V} (coherent : c.Coherent)
include coherent

theorem order_of_nodes {k : K} {node : Node V} (h : c.nodes[k]? = some node) : c.order[node.tick]? = some k :=
  (coherent.order_iff _ _).2 ⟨node.value, h⟩

/-- A key stands in the order once. -/
theorem tick_unique {t t' : UInt64} {k : K} (h : c.order[t]? = some k) (h' : c.order[t']? = some k) : t = t' := by
  obtain ⟨v, hv⟩ := (coherent.order_iff t k).1 h
  obtain ⟨v', hv'⟩ := (coherent.order_iff t' k).1 h'
  rw [hv] at hv'
  cases hv'
  rfl

/-- **The list holds exactly what the cache holds.** -/
theorem mem_toList {k : K} {v : V} : (k, v) ∈ c.toList ↔ c.peek? k = some v := by
  simp only [toList, List.mem_filterMap, Option.map_eq_some_iff, Prod.mk.injEq, Prod.exists]
  constructor
  · rintro ⟨t, k', -, w, hw, rfl, rfl⟩
    exact hw
  · intro h
    obtain ⟨t, ht⟩ := peek?_eq_some_iff.1 h
    exact ⟨t, k, TreeMap.mem_toList_iff_getElem?_eq_some.2 (coherent.order_of_nodes ht), v, h, rfl, rfl⟩

theorem pairwise_keys : c.toList.Pairwise fun p q => p.1 ≠ q.1 := by
  rw [toList, List.pairwise_filterMap]
  refine TreeMap.ordered_keys_toList.imp_of_mem ?_
  rintro ⟨t, k⟩ ⟨t', k'⟩ hp hq lt p h q h'
  simp only [Option.map_eq_some_iff] at h h'
  obtain ⟨_, _, rfl⟩ := h
  obtain ⟨_, _, rfl⟩ := h'
  rintro rfl
  rw [TreeMap.mem_toList_iff_getElem?_eq_some] at hp hq
  rw [coherent.tick_unique hp hq, Std.compare_self] at lt
  cases lt

/-- **A key stands in the list once.** -/
theorem nodup_keys : (c.toList.map (·.1)).Nodup := List.pairwise_map.2 coherent.pairwise_keys

/-- Capacity and counters have no part in coherence. -/
theorem of_maps {d : Lru K V} (nodes : d.nodes = c.nodes) (order : d.order = c.order) (tick : d.tick = c.tick) :
    d.Coherent :=
  ⟨by rw [nodes, order]; exact coherent.order_iff, by rw [order, tick]; exact coherent.le_tick⟩

/-- No entry bears a tick to come. -/
theorem lt_next (room : c.tick < c.tick + 1) {t : UInt64} {k : K} (h : c.order[t]? = some k) : t < c.tick + 1 :=
  UInt64.lt_of_le_of_lt (coherent.le_tick t k h) room

/-- **What is evicted** is the head of the list. -/
theorem evict_cons {k : K} {v : V} {rest : List (K × V)} (h : c.toList = (k, v) :: rest) :
    ∃ node, c.nodes[k]? = some node ∧ c.evict = (some (k, v), { c.discard k node with stats := c.stats.eviction }) := by
  cases hl : c.order.toList with
  | nil => rw [toList, hl] at h; cases h
  | cons p ticks =>
    obtain ⟨t, k'⟩ := p
    have ht : c.order[t]? = some k' :=
      TreeMap.mem_toList_iff_getElem?_eq_some.1 (by rw [hl]; exact List.mem_cons_self)
    obtain ⟨w, hw⟩ := (coherent.order_iff t k').1 ht
    have least : c.order.minKey? = some t := by
      rw [TreeMap.minKey?_eq_head?_keys, ← TreeMap.map_fst_toList_eq_keys, hl]
      rfl
    have head : (k', w) = (k, v) := by
      rw [toList, hl, List.filterMap_cons_some (b := (k', w)) (by simp [peek?, hw])] at h
      exact (List.cons.inj h).1
    cases head
    exact ⟨_, hw, by simp only [evict, least, ht, hw]; rfl⟩

variable [TransOrd K] [LawfulEqOrd K]

theorem length_toList : c.toList.length = c.size := by
  have perm : (c.toList.map (·.1)).Perm c.nodes.keys := by
    refine (List.perm_ext_iff_of_nodup coherent.nodup_keys TreeMap.nodup_keys).2 fun k => ?_
    rw [TreeMap.mem_keys, TreeMap.mem_iff_isSome_getElem?, Option.isSome_iff_exists, List.mem_map]
    constructor
    · rintro ⟨⟨k', v⟩, h, rfl⟩
      obtain ⟨t, ht⟩ := peek?_eq_some_iff.1 (coherent.mem_toList.1 h)
      exact ⟨_, ht⟩
    · rintro ⟨node, h⟩
      exact ⟨(k, node.value), coherent.mem_toList.2 (peek?_eq_some_iff.2 ⟨node.tick, h⟩), rfl⟩
  rw [size, ← TreeMap.length_keys, ← perm.length_eq, List.length_map]

variable [DecidableEq K] {k : K} {node : Node V} (here : c.nodes[k]? = some node)
include here

/-! ## A key leaves -/

theorem toList_discard : (c.discard k node).toList = c.toList.filter (·.1 != k) := by
  rw [toList, Lru.discard, Lru.toList_erase, List.filterMap_filter, toList, List.filter_filterMap]
  refine List.filterMap_congr ?_
  rintro ⟨t, k'⟩ h
  rw [TreeMap.mem_toList_iff_getElem?_eq_some] at h
  obtain ⟨v, hv⟩ := (coherent.order_iff t k').1 h
  by_cases hk : k' = k
  · subst hk
    rw [coherent.tick_unique h (coherent.order_of_nodes here)]
    simp [peek?, hv, Option.filter_some]
  · have ht : t ≠ node.tick := by
      rintro rfl
      rw [coherent.order_of_nodes here] at h
      exact hk (Option.some.inj h).symm
    simp [peek?, TreeMap.getElem?_erase, hv, ht, hk, Ne.symm hk, Option.filter_some]

theorem discard : (c.discard k node).Coherent where
  order_iff t k' := by
    simp only [Lru.discard, TreeMap.getElem?_erase, Std.compare_eq_iff_eq]
    by_cases hk : k = k'
    · subst hk
      have gone : ∀ t, node.tick ≠ t → c.order[t]? ≠ some k := fun t ht h =>
        ht (coherent.tick_unique (coherent.order_of_nodes here) h)
      by_cases ht : node.tick = t <;> simp [ht, gone]
    · rw [if_neg hk, ← coherent.order_iff]
      by_cases ht : node.tick = t
      · subst ht
        simp [coherent.order_of_nodes here, hk]
      · simp [ht]
  le_tick t k' h := by
    simp only [Lru.discard, TreeMap.getElem?_erase] at h
    split at h
    · cases h
    · exact coherent.le_tick t k' h

end Coherent

/-! ## A key is touched -/

namespace Appended

variable [LawfulEqOrd K] {d e : Lru K V} {k : K} {v : V} (appended : Appended d e k v)
  (before : d.Coherent) (absent : d.nodes[k]? = none) (room : d.tick < d.tick + 1)
include appended before absent room

theorem toList : e.toList = d.toList ++ [(k, v)] := by
  rw [Lru.toList, appended.order, toList_insert_of_lt fun t k h => before.lt_next room h, List.filterMap_append]
  congr 1
  · refine List.filterMap_congr ?_
    rintro ⟨t, k'⟩ h
    obtain ⟨w, hw⟩ := (before.order_iff t k').1 (TreeMap.mem_toList_iff_getElem?_eq_some.1 h)
    have hk : k ≠ k' := fun h => by rw [h, hw] at absent; cases absent
    simp [peek?, appended.nodes, hk]
  · simp [peek?, appended.nodes]

theorem coherent : e.Coherent where
  order_iff t k' := by
    rw [appended.order, appended.nodes, TreeMap.getElem?_insert]
    simp only [Std.compare_eq_iff_eq]
    have fresh : ∀ k, d.order[d.tick + 1]? ≠ some k := fun k h => absurd (before.lt_next room h) (UInt64.lt_irrefl _)
    by_cases ht : d.tick + 1 = t
    · subst ht
      by_cases hk : k = k'
      · simp [hk]
      · simpa [hk] using fun v h => fresh k' ((before.order_iff _ _).2 ⟨v, h⟩)
    · rw [if_neg ht, before.order_iff]
      by_cases hk : k = k'
      · subst hk
        simp [absent, ht]
      · simp [hk]
  le_tick t k' h := by
    rw [appended.order, TreeMap.getElem?_insert] at h
    rw [appended.tick]
    split at h
    · next ht => exact Std.le_of_eq (Std.compare_eq_iff_eq.1 ht).symm
    · exact UInt64.le_of_lt (before.lt_next room h)

end Appended

/-! ## The operations -/

section Operations

variable [TransOrd K] {c : Lru K V} {k : K} {v : V}

theorem appended_restamp {node : Node V} : Appended (c.discard k node) (c.restamp k node v) k v where
  order := rfl
  nodes k' := by
    simp only [restamp, discard, TreeMap.getElem?_insert, TreeMap.getElem?_erase]
    split <;> rfl
  tick := rfl

theorem nodes_discard {node : Node V} : (c.discard k node).nodes[k]? = none := TreeMap.getElem?_erase_self

variable [LawfulEqOrd K] (coherent : c.Coherent)
include coherent

/-- A touch moves an entry to the end. -/
theorem Coherent.restamp [DecidableEq K] {node : Node V} (here : c.nodes[k]? = some node)
    (room : c.tick < c.tick + 1) :
    (c.restamp k node v).Coherent ∧ (c.restamp k node v).toList = c.toList.filter (·.1 != k) ++ [(k, v)] := by
  have before := coherent.discard here
  refine ⟨appended_restamp.coherent before nodes_discard room, ?_⟩
  rw [appended_restamp.toList before nodes_discard room, coherent.toList_discard here]

end Operations

end ResponseCache.Lru
