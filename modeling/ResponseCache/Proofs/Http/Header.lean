import ResponseCache.Http.Header
import ResponseCache.Proofs.Text.Utf8

/-!
# Header fields that are read back

A field that was put in is the one that is found, and the others are found as before. A visible value is read as the
text that it encodes, and that text can be sent again.
-/

namespace ResponseCache.Http

namespace Headers

variable (h : Headers) {name other : String} (value : ByteArray)

theorem lookup_filter_ne (fields : List (String × ByteArray)) (name other : String) (ne : other ≠ name) :
    (fields.filter fun f => f.1 != name).lookup other = fields.lookup other := by
  induction fields with
  | nil => rfl
  | cons f fields ih =>
    obtain ⟨field, v⟩ := f
    by_cases eq : field = name
    · subst eq
      rw [List.filter_cons_of_neg (by simp), List.lookup_cons, beq_false_of_ne ne]
      exact ih
    · rw [List.filter_cons_of_pos (by simpa using eq), List.lookup_cons, List.lookup_cons, ih]

theorem get?_insert_of_ne (ne : other ≠ name) : (h.insert name value).get? other = h.get? other := by
  rw [get?, insert, List.lookup_append, lookup_filter_ne _ _ _ ne, List.lookup_cons, beq_false_of_ne ne]
  exact Option.or_none

theorem get?_insert_self : (h.insert name value).get? name = some value := by
  have none : (h.fields.filter fun f => f.1 != name).lookup name = none := by
    rw [List.lookup_eq_none_iff]
    intro f mem
    have := (List.mem_filter.1 mem).2
    simp_all [Ne.symm]
  rw [get?, insert, List.lookup_append, none, Option.none_or]
  simp

theorem get?_insert_empty : (empty.insert name value).get? name = some value := by
  simp [get?, insert, empty]

end Headers

/-- A visible text is read as it is. -/
theorem visibleText?_encode {text : String} (visible : isVisible (Text.encode text) = true) :
    visibleText? (Text.encode text) = some text := by
  rw [visibleText?, if_pos visible, Text.decode?_encode]

/-- A text that was read is the one that its value encodes. -/
theorem encode_of_visibleText? {value : ByteArray} {text : String} (read : visibleText? value = some text) :
    Text.encode text = value := by
  unfold visibleText? at read
  split at read
  · exact Text.decode?_eq_some_iff.1 read
  · cases read

/-- Every visible value is read. -/
theorem visibleText?_of_visible {value : ByteArray} (visible : isVisible value = true) :
    ∃ text, visibleText? value = some text := by
  rw [visibleText?, if_pos visible]
  refine Text.decode?_of_ascii fun b mem => ?_
  have := List.all_eq_true.1 visible b mem
  simp only [Bool.or_eq_true, Bool.and_eq_true, decide_eq_true_eq] at this
  obtain rfl | ⟨-, high⟩ := this
  · decide
  · exact UInt8.lt_trans high (by decide)

/-- A visible text can be sent. -/
theorem legalValue?_of_visible {text : String} (visible : isVisible (Text.encode text) = true) :
    legalValue? text = some (Text.encode text) := by
  refine if_pos (List.all_eq_true.2 fun b mem => ?_)
  have := List.all_eq_true.1 visible b mem
  simp only [Bool.or_eq_true, Bool.and_eq_true, decide_eq_true_eq] at this ⊢
  refine this.imp_right fun ⟨low, high⟩ => ⟨low, ?_⟩
  rintro rfl
  exact absurd high (by decide)

end ResponseCache.Http
