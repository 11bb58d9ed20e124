import ResponseCache.Packing
import ResponseCache.Proofs.Gzip.RoundTrip

/-!
# What was packed is unpacked

Whether a response is stored packed or not, the entry stands for the response.
-/

namespace ResponseCache

theorem unpack_compress (body : ByteArray) : unpack (Gzip.compress body) = .ok body := by
  have read := Gzip.decompress_compress body .empty
  rw [ByteArray.append_empty] at read
  rw [unpack, read]
  rfl

/-- **An entry** of a packed response gives the response back. -/
theorem unpack_pack (r : StoredResponse) (asked : Bool) (threshold : Nat) (deadline : Instant) (tags : List String) :
    Entry.unpack ⟨(r.pack asked threshold).2, deadline, tags, (r.pack asked threshold).1⟩ = .ok r := by
  unfold StoredResponse.pack
  split
  · simp only [Entry.unpack, if_true, unpack_compress]
    rfl
  · rfl

end ResponseCache
