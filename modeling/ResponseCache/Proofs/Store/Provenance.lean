import ResponseCache.Operation
import ResponseCache.Proofs.Store.History

/-!
# What a store holds was written there

No operation but a write brings an entry into a store (`perform_holds`), and a look-up finds only what is there
(`get_found`). That needs no invariant of the cache: it holds of every store whatsoever.
-/

namespace ResponseCache

open Std (TreeMap TransOrd LawfulEqOrd)

namespace Lru

variable {K V : Type} [Ord K] [TransOrd K] [LawfulEqOrd K] {c : Lru K V} {k k' : K} {v w : V}

theorem peek?_insert_nodes {d : Lru K V} {t : UInt64} (nodes : d.nodes = c.nodes.insert k ⟨v, t⟩)
    (here : d.peek? k' = some w) : (k' = k ∧ w = v) ∨ c.peek? k' = some w := by
  rw [peek?, nodes, TreeMap.getElem?_insert] at here
  split at here
  · next eq =>
    cases Std.compare_eq_iff_eq.1 eq
    cases here
    exact Or.inl ⟨rfl, rfl⟩
  · exact Or.inr here

omit [LawfulEqOrd K] in
theorem peek?_erase_nodes {d : Lru K V} (nodes : d.nodes = c.nodes.erase k) (here : d.peek? k' = some w) :
    c.peek? k' = some w := by
  rw [peek?, nodes, TreeMap.getElem?_erase] at here
  split at here
  · cases here
  · exact here

omit [LawfulEqOrd K] in
theorem peek?_of_remove (here : (c.remove k).2.peek? k' = some w) : c.peek? k' = some w := by
  unfold remove at here
  split at here
  · exact here
  · exact peek?_erase_nodes rfl here

omit [LawfulEqOrd K] in
theorem peek?_of_evict (here : c.evict.2.peek? k' = some w) : c.peek? k' = some w := by
  unfold evict at here
  split at here
  · exact here
  · split at here
    · exact here
    · dsimp only at here
      split at here
      · exact here
      · exact peek?_erase_nodes rfl here

theorem peek?_of_insert (here : (c.insert k v).2.peek? k' = some w) : (k' = k ∧ w = v) ∨ c.peek? k' = some w := by
  unfold insert at here
  split at here
  · exact peek?_insert_nodes rfl here
  · dsimp only at here
    refine (peek?_insert_nodes rfl here).imp_right fun here => ?_
    split at here
    · exact peek?_of_evict here
    · exact here

omit [TransOrd K] [LawfulEqOrd K] in
theorem get_fst : (c.get k).1 = c.peek? k := by
  unfold get peek?
  cases c.nodes[k]? <;> rfl

theorem peek?_of_get (here : (c.get k).2.peek? k' = some w) : c.peek? k' = some w := by
  unfold get at here
  split at here
  · exact here
  · next node found =>
    rcases peek?_insert_nodes rfl here with ⟨rfl, rfl⟩ | here
    · rw [peek?, found]
      rfl
    · exact here

end Lru

namespace Store

variable {s : Store} {now : Instant} {key key' : String} {e e' : Entry}

/-- The store holds an entry under a key, expired or not. -/
def Holds (s : Store) (key : String) (e : Entry) : Prop := s.entries.peek? key = some e

theorem holds_of_delete (here : (s.delete key').2.Holds key e) : s.Holds key e := by
  unfold Store.delete at here
  split at here <;> next removed =>
    exact Lru.peek?_of_remove (k := key') (by rw [removed]; exact here)

theorem holds_of_get (here : (s.get now key').2.Holds key e) : s.Holds key e := by
  unfold Store.get at here
  have here := Lru.peek?_of_get here
  split at here
  · split at here
    · exact holds_of_delete here
    · exact here
  · exact here

/-- A look-up finds what is there. -/
theorem get_found (found : (s.get now key).1 = some e) : s.Holds key e := by
  unfold Store.get at found
  rw [Lru.get_fst] at found
  split at found
  · split at found
    · exact holds_of_delete found
    · exact found
  · exact found

theorem holds_of_set (here : (s.set key' e').Holds key e) : (key = key' ∧ e = e') ∨ s.Holds key e := by
  unfold Store.set at here
  dsimp only at here
  have inserted : (s.entries.insert key' e').2.peek? key = some e := by
    split at here <;> split at here <;> exact here
  exact Lru.peek?_of_insert inserted

theorem holds_of_deleteAll {keys : List String} (here : (s.deleteAll keys).2.Holds key e) : s.Holds key e :=
  deleteAll_keeps (p := fun t => t.Holds key e → s.Holds key e) (fun _ _ h here => h (holds_of_delete here)) id here

/-- **Only a write** brings an entry into a store. -/
theorem perform_holds {op : Operation} (here : (s.perform now op).2.Holds key e) :
    op = .set key e ∨ s.Holds key e := by
  cases op with
  | get key' => exact Or.inr (holds_of_get here)
  | set key' e' =>
    refine (holds_of_set here).imp_left ?_
    rintro ⟨rfl, rfl⟩
    rfl
  | delete key' => exact Or.inr (holds_of_delete here)
  | acquire key' timeout =>
    simp only [perform, Store.acquire] at here
    split at here <;> exact Or.inr here
  | release key' token =>
    simp only [perform, Store.release] at here
    split at here
    · split at here <;> exact Or.inr here
    · exact Or.inr here
  | invalidateTag tag =>
    simp only [perform, Store.invalidateTag] at here
    split at here
    · exact Or.inr here
    · exact Or.inr (holds_of_deleteAll (s := { s with tagged := s.tagged.erase tag }) here)
  | clear =>
    simp [perform, Store.clear, Lru.clear, Holds, Lru.peek?] at here
  | purge => exact Or.inr (holds_of_deleteAll here)
  | stats => exact Or.inr here
  | resetStats => exact Or.inr here

/-- What all entries of a store satisfy, they satisfy after an operation that writes no others. -/
theorem all_perform (now : Instant) {P : String → Entry → Prop} {op : Operation}
    (written : ∀ key e, op = .set key e → P key e) (holds : ∀ key e, s.Holds key e → P key e) (key : String) (e : Entry)
    (here : (s.perform now op).2.Holds key e) : P key e :=
  (perform_holds here).elim (written key e) (holds key e)

/-- An attempt to lock fails while a live lock is held. -/
theorem isLocked_of_acquire {timeout : Millis} (refused : (s.acquire now key timeout).1 = none) :
    s.isLocked now key = true := by
  unfold Store.acquire at refused
  split at refused
  · assumption
  · cases refused

theorem not_holds_create {capacity : Nat} (create : Store.create capacity = .ok s) : ¬ s.Holds key e := by
  unfold Store.create Lru.create at create
  split at create
  · cases create
    simp [Holds, Lru.peek?]
  · cases create

end Store

end ResponseCache
