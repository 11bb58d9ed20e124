import ResponseCache.Proofs.Store.Provenance
import ResponseCache.Proofs.Store.TagIndex

/-!
# Which operations an entry outlives

An entry that a store holds has stood there since it was written, and `Operation.Removes` says which operations it
cannot have outlived: a write under its key, its deletion, a clearing, and the invalidation of a tag that it carries
(`perform_stands`). The last one needs that the index covers the entries (`Covered`), which every operation keeps
(`Covered.perform`), however full the store is and however often it was touched. A look-up finds live entries only
(`get_live`).
-/

namespace ResponseCache

open Std (TreeMap TransOrd LawfulEqOrd)

/-- An operation after which nothing is left of an entry, unless it wrote the entry itself. -/
def Operation.Removes (key : String) (e : Entry) : Operation → Prop
  | .set key' _ | .delete key' => key' = key
  | .invalidateTag tag => tag ∈ e.tags
  | .clear => True
  | .get _ | .acquire _ _ | .release _ _ | .purge | .stats | .resetStats => False

namespace Lru

variable {K V : Type} [Ord K] [TransOrd K] [LawfulEqOrd K] {c : Lru K V} {k k' : K} {v w : V}

omit [LawfulEqOrd K] in
theorem peek?_remove_self : (c.remove k).2.peek? k = none := by
  unfold remove peek?
  split
  · next absent => rw [absent]; rfl
  · rw [TreeMap.getElem?_erase_self]; rfl

omit [LawfulEqOrd K] in
theorem peek?_insert_self : (c.insert k v).2.peek? k = some v := by
  unfold insert peek?
  split
  · simp [restamp]
  · simp

omit [LawfulEqOrd K] in
theorem evict_victim {victim : K × V} (evicted : c.evict.1 = some victim) :
    (c.nodes[victim.1]?).isSome = true ∧ c.evict.2.nodes[victim.1]? = none := by
  unfold evict at evicted ⊢
  split at evicted
  · cases evicted
  · split at evicted
    · cases evicted
    · dsimp only at evicted ⊢
      split at evicted
      · cases evicted
      · next node here =>
        cases evicted
        rw [here]
        exact ⟨rfl, TreeMap.getElem?_erase_self⟩

/-- What makes room is gone. -/
theorem peek?_insert_victim {victim : K × V} (evicted : (c.insert k v).1 = some victim) :
    (c.insert k v).2.peek? victim.1 = none := by
  unfold insert at evicted ⊢
  split at evicted
  · cases evicted
  · next absent =>
    dsimp only at evicted ⊢
    split at evicted
    · next full =>
      obtain ⟨present, gone⟩ := evict_victim evicted
      have ne : k ≠ victim.1 := by
        rintro rfl
        rw [absent] at present
        cases present
      rw [if_pos full, peek?, TreeMap.getElem?_insert, if_neg fun eq => ne (Std.compare_eq_iff_eq.1 eq), gone]
      rfl
    · cases evicted

end Lru

namespace Store

variable {s : Store} {now : Instant} {key key' : String} {e e' : Entry} {dropped : List String}

theorem Holds.unique (here : s.Holds key e) (here' : s.Holds key e') : e = e' :=
  Option.some.inj (here.symm.trans here')

theorem not_holds_delete : ¬ (s.delete key).2.Holds key e := by
  intro here
  have gone := Lru.peek?_remove_self (c := s.entries) (k := key)
  unfold Store.delete at here
  split at here <;> next removed =>
    rw [removed] at gone
    cases gone.symm.trans here

theorem not_holds_deleteAll : ∀ {keys : List String} {s : Store}, key ∈ keys → ¬ (s.deleteAll keys).2.Holds key e
  | key' :: keys, s, mem, here => by
    rw [deleteAll_cons] at here
    rcases List.mem_cons.1 mem with rfl | mem
    · exact not_holds_delete (holds_of_deleteAll here)
    · exact not_holds_deleteAll mem here

theorem holds_set_self : (s.set key e).Holds key e := by
  unfold Store.set
  dsimp only
  split <;> split <;> exact Lru.peek?_insert_self

/-- **A look-up finds live entries** only. -/
theorem get_live (found : (s.get now key).1 = some e) : now < e.deadline := by
  unfold Store.get at found
  rw [Lru.get_fst] at found
  split at found
  · next entry here =>
    split at found
    · exact absurd found not_holds_delete
    · next live =>
      obtain rfl : entry = e := Option.some.inj (here.symm.trans found)
      simpa [Entry.isExpired] using live
  · next absent =>
    rw [absent] at found
    cases found

/-- **A live entry is found.** -/
theorem get_of_live (here : s.Holds key e) (live : now < e.deadline) : (s.get now key).1 = some e := by
  have fresh : e.isExpired now = false := decide_eq_false (Nat.not_le_of_lt live)
  have there : s.entries.peek? key = some e := here
  unfold Store.get
  simp only [there, fresh, Bool.false_eq_true, if_false]
  exact Lru.get_fst.trans there

/-! ## The index covers the entries -/

/-- The last step of a write: the entry is put in, and what made room leaves the index. -/
def settle (s : Store) (key : String) (e : Entry) : Store :=
  match (s.entries.insert key e).1 with
  | some (victim, old) => { s with entries := (s.entries.insert key e).2 }.untag victim old.tags
  | none => { s with entries := (s.entries.insert key e).2 }

/-- Under the tags of an entry that is still there, the last step leaves its key. -/
theorem mem_settle {tag : String} (here : (s.settle key e).Holds key' e')
    (under : key' ∈ s.tagged.getD tag ∅) : key' ∈ (s.settle key e).tagged.getD tag ∅ := by
  unfold settle at here ⊢
  split
  · next victim old evicted =>
    refine mem_removeTags.2 ⟨under, ?_⟩
    rintro ⟨-, rfl⟩
    rw [evicted] at here
    cases (Lru.peek?_insert_victim evicted).symm.trans here
  · exact under

/-- Every entry stands in the index under its tags, apart from the tags `dropped`. -/
def Covered (dropped : List String) (s : Store) : Prop :=
  ∀ key e, s.Holds key e → ∀ tag ∈ e.tags, tag ∉ dropped → key ∈ s.tagged.getD tag ∅

namespace Covered

section Any

variable (covered : Covered dropped s)
include covered

theorem delete (key : String) : Covered dropped (s.delete key).2 := by
  intro key' e here tag mem kept
  have ne : key ≠ key' := by
    rintro rfl
    exact not_holds_delete here
  have under := covered key' e (holds_of_delete here) tag mem kept
  unfold Store.delete
  split
  · exact mem_removeTags.2 ⟨under, fun other => ne other.2⟩
  · exact under

theorem deleteAll (keys : List String) : Covered dropped (s.deleteAll keys).2 :=
  deleteAll_keeps (fun _ key covered => covered.delete key) covered

end Any

section Whole

variable (covered : Covered [] s)
include covered

/-- A write enters the new entry, and takes out no key but those of entries that are gone. -/
theorem set (key : String) (e : Entry) : Covered [] (s.set key e) := by
  intro key' e' here tag mem _
  refine mem_settle here (mem_addTags.2 ?_)
  rcases holds_of_set here with ⟨rfl, rfl⟩ | before
  · exact Or.inl ⟨mem, rfl⟩
  · by_cases same : key = key'
    · subst same
      exact Or.inl ⟨here.unique holds_set_self ▸ mem, rfl⟩
    · have under := covered key' e' before tag mem List.not_mem_nil
      refine Or.inr ?_
      split
      · exact mem_removeTags.2 ⟨under, fun other => same other.2⟩
      · exact under

theorem get (now : Instant) (key : String) : Covered [] (s.get now key).2 := by
  intro key' e here
  unfold Store.get at here ⊢
  have here := Lru.peek?_of_get here
  split at here
  · split at here
    · next entry found expired =>
      rw [if_pos expired]
      exact covered.delete key key' e here
    · next entry found live =>
      rw [if_neg live]
      exact covered key' e here
  · exact covered key' e here

/-- Once a tag is invalidated, no entry carries it. -/
theorem not_holds_invalidateTag {tag : String} (mem : tag ∈ e.tags) : ¬ (s.invalidateTag tag).2.Holds key e := by
  intro here
  have before : s.Holds key e := by
    rcases perform_holds (show (s.perform 0 (.invalidateTag tag)).2.Holds key e from here) with eq | before
    · cases eq
    · exact before
  obtain ⟨keys, index, under⟩ := mem_under_iff.1 (covered key e before tag mem List.not_mem_nil)
  unfold Store.invalidateTag at here
  rw [index] at here
  exact not_holds_deleteAll (Std.TreeSet.mem_toList.2 under) here

theorem invalidateTag (tag : String) : Covered [] (s.invalidateTag tag).2 := by
  intro key e here tag' mem _
  have ne : tag' ∉ [tag] := fun same =>
    covered.not_holds_invalidateTag (List.mem_singleton.1 same ▸ mem) here
  unfold Store.invalidateTag at here ⊢
  split at here
  · exact covered key e here tag' mem List.not_mem_nil
  · next keys index =>
    have start : Covered [tag] { s with tagged := s.tagged.erase tag } := by
      intro key e here tag' mem kept
      show key ∈ (s.tagged.erase tag).getD tag' ∅
      rw [TreeMap.getD_erase, if_neg fun eq => kept (List.mem_singleton.2 (Std.compare_eq_iff_eq.1 eq).symm)]
      exact covered key e here tag' mem List.not_mem_nil
    exact start.deleteAll keys.toList key e here tag' mem ne

/-- **Every operation** keeps the index in step with the entries. -/
theorem perform (now : Instant) (op : Operation) : Covered [] (s.perform now op).2 := by
  cases op with
  | get key => exact covered.get now key
  | set key e => exact covered.set key e
  | delete key => exact covered.delete key
  | invalidateTag tag => exact covered.invalidateTag tag
  | purge => exact covered.deleteAll _
  | clear =>
    intro key e here
    simp [Store.perform, Store.clear, Lru.clear, Holds, Lru.peek?] at here
  | acquire key timeout =>
    simp only [Store.perform, Store.acquire]
    split <;> exact covered
  | release key token =>
    simp only [Store.perform, Store.release]
    split
    · split <;> exact covered
    · exact covered
  | stats | resetStats => exact covered

end Whole

end Covered

theorem covered_create {capacity : Nat} (create : Store.create capacity = .ok s) : Covered [] s :=
  fun _ _ here => absurd here (not_holds_create create)

/-- **What a store holds after an operation** was written by it, or stood there before and outlived it. -/
theorem perform_stands (covered : Covered [] s) {op : Operation} (here : (s.perform now op).2.Holds key e) :
    op = .set key e ∨ (s.Holds key e ∧ ¬ op.Removes key e) := by
  refine or_iff_not_imp_left.2 fun other => ?_
  refine ⟨(perform_holds here).resolve_left other, fun removes => ?_⟩
  cases op with
  | set key' e' =>
    cases removes
    cases here.unique holds_set_self
    exact other rfl
  | delete key' =>
    cases removes
    exact not_holds_delete here
  | invalidateTag tag => exact covered.not_holds_invalidateTag removes here
  | clear => simp [Store.perform, Store.clear, Lru.clear, Holds, Lru.peek?] at here
  | get | acquire | release | purge | stats | resetStats => exact removes

end Store

end ResponseCache
