import Mathlib.Data.List.Nodup
import Mathlib.Tactic.Tauto
import ResponseCache.Store.Basic

/-!
# The index from tags to keys

What the operations on the index do to the keys under a tag (`mem_addTag`, `mem_removeTag`), and when an index is the
one of a list of entries: `Indexes` leaves out tags that are being dropped, as in the middle of an invalidation.
Taking an entry out of the list and its key out of the index keeps the two together (`Indexes.erase`), and so does
adding an entry to both (`Indexes.append`).
-/

namespace ResponseCache.Store

open Std (TreeMap TreeSet)

/-- A map from tags to keys. -/
abbrev Index := TreeMap String (TreeSet String)

/-- No tag is kept without a key. -/
def Tight (index : Index) : Prop :=
  ∀ (tag : String) (keys : TreeSet String), index[tag]? = some keys → keys.isEmpty = false

section Index

variable {index : Index} {key key' tag tag' : String} {tags : List String}

theorem mem_under_iff : key ∈ index.getD tag ∅ ↔ ∃ keys, index[tag]? = some keys ∧ key ∈ keys := by
  rw [TreeMap.getD_eq_getD_getElem?]
  cases index[tag]? with
  | none => simp [TreeSet.not_mem_emptyc]
  | some keys => simp

theorem mem_addTag :
    key' ∈ (addTag index key tag).getD tag' ∅ ↔ (tag = tag' ∧ key = key') ∨ key' ∈ index.getD tag' ∅ := by
  rw [addTag, TreeMap.getD_insert]
  by_cases h : tag = tag'
  · subst h
    rw [if_pos Std.compare_self, TreeSet.mem_insert, Std.compare_eq_iff_eq]
    simp
  · rw [if_neg fun eq => h (Std.compare_eq_iff_eq.1 eq)]
    simp [h]

theorem mem_removeTag :
    key' ∈ (removeTag index key tag).getD tag' ∅ ↔ key' ∈ index.getD tag' ∅ ∧ ¬ (tag = tag' ∧ key = key') := by
  unfold removeTag
  split
  · next none =>
    refine (and_iff_left_of_imp ?_).symm
    rintro mem ⟨rfl, rfl⟩
    rw [mem_under_iff, none] at mem
    simp at mem
  · next keys here =>
    by_cases h : tag = tag'
    · subst h
      have under : index.getD tag ∅ = keys := by rw [TreeMap.getD_eq_getD_getElem?, here]; rfl
      have erased : key' ∈ keys.erase key ↔ key' ∈ keys ∧ ¬ key = key' := by
        rw [TreeSet.mem_erase, ne_eq, Std.compare_eq_iff_eq, and_comm]
      dsimp only
      split
      · next empty =>
        rw [TreeMap.getD_erase_self, under]
        have := TreeSet.isEmpty_iff_forall_not_mem.1 empty key'
        simp only [true_and]
        exact iff_of_false TreeSet.not_mem_emptyc fun mem => this (erased.2 mem)
      · rw [TreeMap.getD_insert_self, under]
        simp only [true_and]
        exact erased
    · dsimp only
      split
      · rw [TreeMap.getD_erase, if_neg fun eq => h (Std.compare_eq_iff_eq.1 eq)]
        simp [h]
      · rw [TreeMap.getD_insert, if_neg fun eq => h (Std.compare_eq_iff_eq.1 eq)]
        simp [h]

theorem mem_addTags : key' ∈ (tags.foldl (fun index t => addTag index key t) index).getD tag' ∅ ↔
    (tag' ∈ tags ∧ key = key') ∨ key' ∈ index.getD tag' ∅ := by
  induction tags generalizing index with
  | nil => simp
  | cons tag tags ih =>
    rw [List.foldl_cons, ih, mem_addTag, List.mem_cons, eq_comm (a := tag)]
    tauto

theorem mem_removeTags : key' ∈ (tags.foldl (fun index t => removeTag index key t) index).getD tag' ∅ ↔
    key' ∈ index.getD tag' ∅ ∧ ¬ (tag' ∈ tags ∧ key = key') := by
  induction tags generalizing index with
  | nil => simp
  | cons tag tags ih =>
    rw [List.foldl_cons, ih, mem_removeTag, List.mem_cons, eq_comm (a := tag)]
    tauto

theorem Tight.addTag (tight : Tight index) (key tag : String) : Tight (addTag index key tag) := by
  intro tag' keys here
  rw [Store.addTag, TreeMap.getElem?_insert] at here
  split at here
  · cases here
    exact TreeSet.isEmpty_insert
  · exact tight tag' keys here

theorem Tight.erase (tight : Tight index) (tag : String) : Tight (index.erase tag) := by
  intro tag' keys here
  rw [TreeMap.getElem?_erase] at here
  split at here
  · cases here
  · exact tight tag' keys here

theorem Tight.removeTag (tight : Tight index) (key tag : String) : Tight (removeTag index key tag) := by
  unfold Store.removeTag
  split
  · exact tight
  · dsimp only
    split
    · exact tight.erase tag
    · next full =>
      intro tag' keys' here
      rw [TreeMap.getElem?_insert] at here
      split at here
      · cases here
        exact Bool.eq_false_iff.2 full
      · exact tight tag' keys' here

/-- What holds of an index stays true along a fold that keeps it. -/
theorem Tight.foldl {f : Index → String → Index} (keeps : ∀ {index}, Tight index → ∀ tag, Tight (f index tag)) :
    ∀ (tags : List String) {index : Index}, Tight index → Tight (tags.foldl f index)
  | [], _, tight => tight
  | tag :: tags, _, tight => Tight.foldl keeps tags (keeps tight tag)

end Index

/-! ## The index of a list of entries -/

/-- The index holds just the keys of the entries under just their tags, but nothing under the tags `dropped`. -/
structure Indexes (dropped : List String) (index : Index) (entries : List (String × Entry)) : Prop where
  tight : Tight index
  mem_iff : ∀ tag key : String, key ∈ index.getD tag ∅ ↔ tag ∉ dropped ∧ ∃ e, (key, e) ∈ entries ∧ tag ∈ e.tags

namespace Indexes

variable {dropped : List String} {index : Index} {entries : List (String × Entry)}

theorem empty : Indexes [] ∅ [] where
  tight _ _ here := by rw [TreeMap.getElem?_emptyc] at here; cases here
  mem_iff tag key := by simp

variable (indexes : Indexes dropped index entries)
include indexes

/-- The order of the entries does not matter. -/
theorem of_mem {entries' : List (String × Entry)} (h : ∀ p, p ∈ entries' ↔ p ∈ entries) :
    Indexes dropped index entries' where
  tight := indexes.tight
  mem_iff tag key := by simp only [indexes.mem_iff, h]

/-- An entry taken out, and its key from under its tags. -/
theorem erase (nodup : (entries.map (·.1)).Nodup) {key : String} {e : Entry} (here : (key, e) ∈ entries) :
    Indexes dropped (e.tags.foldl (fun index t => removeTag index key t) index) (entries.filter (·.1 != key)) where
  tight := Tight.foldl (fun tight => tight.removeTag key) e.tags indexes.tight
  mem_iff tag key' := by
    rw [mem_removeTags, indexes.mem_iff]
    simp only [List.mem_filter, bne_iff_ne]
    constructor
    · rintro ⟨⟨kept, e', mem, tagged⟩, other⟩
      refine ⟨kept, e', ⟨mem, ?_⟩, tagged⟩
      rintro rfl
      obtain rfl : e = e' := congrArg Prod.snd (List.inj_on_of_nodup_map nodup here mem rfl)
      exact other ⟨tagged, rfl⟩
    · rintro ⟨kept, e', ⟨mem, ne⟩, tagged⟩
      exact ⟨⟨kept, e', mem, tagged⟩, fun other => ne other.2.symm⟩

/-- An entry added, and its key under its tags. -/
theorem append (key : String) (e : Entry) (kept : ∀ tag ∈ e.tags, tag ∉ dropped) :
    Indexes dropped (e.tags.foldl (fun index t => addTag index key t) index) (entries ++ [(key, e)]) where
  tight := Tight.foldl (fun tight => tight.addTag key) e.tags indexes.tight
  mem_iff tag key' := by
    rw [mem_addTags, indexes.mem_iff]
    simp only [List.mem_append, List.mem_singleton, Prod.mk.injEq]
    constructor
    · rintro (⟨tagged, rfl⟩ | ⟨kept, e', mem, tagged⟩)
      · exact ⟨kept tag tagged, e, Or.inr ⟨rfl, rfl⟩, tagged⟩
      · exact ⟨kept, e', Or.inl mem, tagged⟩
    · rintro ⟨kept, e', mem | ⟨rfl, rfl⟩, tagged⟩
      · exact Or.inr ⟨kept, e', mem, tagged⟩
      · exact Or.inl ⟨tagged, rfl⟩

/-- A tag dropped from the index. -/
theorem drop (tag : String) : Indexes (tag :: dropped) (index.erase tag) entries where
  tight := indexes.tight.erase tag
  mem_iff tag' key := by
    rw [TreeMap.getD_erase]
    split
    · next eq =>
      cases Std.compare_eq_iff_eq.1 eq
      exact iff_of_false TreeSet.not_mem_emptyc fun h => h.1 List.mem_cons_self
    · next ne =>
      have : tag' ≠ tag := fun eq => ne (Std.compare_eq_iff_eq.2 eq.symm)
      rw [indexes.mem_iff, List.mem_cons, not_or]
      simp [this]

/-- Tags that no entry carries any more are dropped for good. -/
theorem settle (gone : ∀ key e, (key, e) ∈ entries → ∀ tag ∈ dropped, tag ∉ e.tags) : Indexes [] index entries where
  tight := indexes.tight
  mem_iff tag key := by
    rw [indexes.mem_iff]
    simp only [List.not_mem_nil, not_false_eq_true, true_and]
    exact ⟨And.right, fun h => ⟨fun mem => h.elim fun e h => gone key e h.1 tag mem h.2, h⟩⟩

end Indexes

end ResponseCache.Store
