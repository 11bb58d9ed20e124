import ResponseCache.Http.Message

/-!
# Buffering a body

A body is read chunk by chunk until it ends or is longer than a limit. A body that is too long is put together again
from what was read and what was not, so nothing of it is lost.
-/

namespace ResponseCache.Http

inductive Buffered where
  | complete (bytes : ByteArray)
  /-- The body is longer than the limit; here it is again, unread. -/
  | tooLong (body : Body)
  /-- The stream broke off within the limit. -/
  | failed (reason : String)

namespace Body

/-- Reads on, `total` bytes having been read in the chunks of `taken`, which is in reverse. -/
def bufferFrom (limit : Nat) (failure : Option String) (taken : List ByteArray) (total : Nat) :
    List ByteArray → Buffered
  | [] =>
    match failure with
    | some reason => .failed reason
    | none => .complete (Body.bytes ⟨taken.reverse, none⟩)
  | chunk :: rest =>
    let total := total + chunk.size
    if limit < total then .tooLong ⟨(chunk :: taken).reverse ++ rest, failure⟩
    else bufferFrom limit failure (chunk :: taken) total rest

/-- Reads a body of at most `limit` bytes. -/
def buffer (limit : Nat) (b : Body) : Buffered := bufferFrom limit b.failure [] 0 b.chunks

theorem bufferFrom_eq_tooLong {limit : Nat} {failure : Option String} {c : Body} :
    ∀ {chunks taken : List ByteArray} {total : Nat}, bufferFrom limit failure taken total chunks = .tooLong c →
      c = ⟨taken.reverse ++ chunks, failure⟩
  | [], _, _, h => by cases failure <;> simp [bufferFrom] at h
  | chunk :: rest, taken, total, h => by
    simp only [bufferFrom] at h
    split at h
    · injection h with h
      simp [← h]
    · simpa using bufferFrom_eq_tooLong h

/-- **A body that is too long** comes back as it was. -/
theorem eq_of_buffer_eq_tooLong {limit : Nat} {b c : Body} (h : b.buffer limit = .tooLong c) : c = b := by
  simpa using bufferFrom_eq_tooLong h

end Body

end ResponseCache.Http
