import Mathlib.Algebra.Ring.Nat
import ResponseCache.Http.Buffer

/-!
# What buffering a body gives

Only the number of bytes and the end of the stream matter, not the chunks (`Body.buffer_eq`): a body within the limit
comes out as its bytes, or with its failure, and a longer one comes back unread.
-/

namespace ResponseCache.Http.Body

/-- The number of bytes that arrive. -/
def size (b : Body) : Nat := (b.chunks.map (·.size)).sum

theorem foldl_append (chunks : List ByteArray) (start : ByteArray) :
    chunks.foldl (fun all chunk => all ++ chunk) start =
      start ++ chunks.foldl (fun all chunk => all ++ chunk) .empty := by
  induction chunks generalizing start with
  | nil => exact ByteArray.append_empty.symm
  | cons chunk chunks ih =>
    rw [List.foldl_cons, List.foldl_cons, ih, ih (.empty ++ chunk), ByteArray.empty_append, ByteArray.append_assoc]

theorem size_bytes (b : Body) : b.bytes.size = b.size := by
  obtain ⟨chunks, failure⟩ := b
  simp only [bytes, size]
  induction chunks with
  | nil => rfl
  | cons chunk chunks ih =>
    rw [List.foldl_cons, foldl_append, ByteArray.empty_append, ByteArray.size_append, ih, List.map_cons, List.sum_cons]

theorem bytes_ofBytes (bytes : ByteArray) : (ofBytes bytes).bytes = bytes := ByteArray.empty_append

theorem collect_ofBytes (bytes : ByteArray) : (ofBytes bytes).collect = .ok bytes :=
  congrArg Except.ok (bytes_ofBytes bytes)

theorem collect_eq_ok {b : Body} {bytes : ByteArray} (h : b.collect = .ok bytes) :
    b.failure = none ∧ b.bytes = bytes := by
  unfold collect at h
  split at h
  · next whole => exact ⟨whole, Except.ok.inj h⟩
  · cases h

/-- How a body within the limit comes out. -/
def ending (b : Body) : Buffered :=
  match b.failure with
  | none => .complete b.bytes
  | some reason => .failed reason

theorem bufferFrom_eq (limit : Nat) (failure : Option String) : ∀ {chunks taken : List ByteArray} {total : Nat},
    total ≤ limit → bufferFrom limit failure taken total chunks =
      if total + (chunks.map (·.size)).sum ≤ limit then ending ⟨taken.reverse ++ chunks, failure⟩
      else .tooLong ⟨taken.reverse ++ chunks, failure⟩
  | [], taken, total, le => by
    rw [List.map_nil, List.sum_nil, Nat.add_zero, if_pos le, List.append_nil]
    cases failure <;> rfl
  | chunk :: chunks, taken, total, le => by
    rw [bufferFrom, List.map_cons, List.sum_cons, ← Nat.add_assoc]
    split
    · next long =>
      have : ¬ total + chunk.size + (chunks.map (·.size)).sum ≤ limit := by omega
      rw [if_neg this, List.reverse_cons, List.append_assoc]
      rfl
    · next short =>
      rw [bufferFrom_eq limit failure (Nat.le_of_not_lt short), List.reverse_cons, List.append_assoc]
      rfl

/-- **Buffering** depends on the size and the end of a body alone. -/
theorem buffer_eq (limit : Nat) (b : Body) : b.buffer limit = if b.size ≤ limit then b.ending else .tooLong b := by
  rw [buffer, bufferFrom_eq limit b.failure (Nat.zero_le limit), Nat.zero_add, List.reverse_nil, List.nil_append]
  rfl

/-- A whole body within the limit comes out as its bytes. -/
theorem buffer_of_whole {limit : Nat} {b : Body} (whole : b.failure = none) (le : b.size ≤ limit) :
    b.buffer limit = .complete b.bytes := by
  rw [buffer_eq, if_pos le, ending, whole]

/-- What is buffered whole is what arrives. -/
theorem collect_of_buffer {limit : Nat} {b : Body} {bytes : ByteArray} (h : b.buffer limit = .complete bytes) :
    b.collect = .ok bytes := by
  rw [buffer_eq] at h
  split at h
  · unfold ending at h
    split at h
    · next whole =>
      cases h
      rw [collect, whole]
    · cases h
  · cases h

/-- **What is buffered whole** is what arrives, if it is no longer than the limit. -/
theorem buffer_eq_complete_iff {limit : Nat} {b : Body} {bytes : ByteArray} :
    b.buffer limit = .complete bytes ↔ b.collect = .ok bytes ∧ bytes.size ≤ limit := by
  constructor
  · intro h
    have whole := collect_of_buffer h
    obtain ⟨-, eq⟩ := collect_eq_ok whole
    refine ⟨whole, ?_⟩
    rw [← eq, size_bytes]
    rw [buffer_eq] at h
    split at h
    · assumption
    · cases h
  · rintro ⟨whole, le⟩
    obtain ⟨unbroken, rfl⟩ := collect_eq_ok whole
    exact buffer_of_whole unbroken (size_bytes b ▸ le)

/-- **What fails to be buffered** is what breaks off within the limit. -/
theorem buffer_eq_failed_iff {limit : Nat} {b : Body} {reason : String} :
    b.buffer limit = .failed reason ↔ b.failure = some reason ∧ b.size ≤ limit := by
  obtain ⟨chunks, failure⟩ := b
  rw [buffer_eq]
  split
  · next le =>
    rw [and_iff_left le]
    cases failure <;> simp [ending]
  · next long => exact iff_of_false nofun fun fails => long fails.2

/-- **What is too long** to be buffered comes back as it was. -/
theorem buffer_eq_tooLong_iff {limit : Nat} {b c : Body} : b.buffer limit = .tooLong c ↔ c = b ∧ limit < b.size := by
  constructor
  · intro h
    refine ⟨eq_of_buffer_eq_tooLong h, Nat.not_le.1 fun le => ?_⟩
    rw [buffer_eq, if_pos le, ending] at h
    split at h <;> cases h
  · rintro ⟨rfl, long⟩
    rw [buffer_eq, if_neg (Nat.not_le.2 long)]

end ResponseCache.Http.Body
