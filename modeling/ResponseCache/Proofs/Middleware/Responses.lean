import ResponseCache.Middleware
import ResponseCache.Proofs.Http.Buffer
import ResponseCache.Proofs.Http.Header

/-!
# What becomes of a response

The middleware puts a mark on a response (`Marked`), and apart from that hands it on as it is (`HandsOn`): its status,
its other fields and its body, even if that was read to be stored. A refusal has no mark.
-/

namespace ResponseCache

open Http

/-! ## Marks -/

/-- The response is marked so. -/
def Http.Response.Marked (m : Mark) (r : Response) : Prop :=
  r.headers.get? Middleware.markField = some (Text.encode m.text)

theorem Http.Response.marked_mark {m m' : Mark} {r : Response} : (Middleware.mark m r).Marked m' ↔ m = m' := by
  unfold Marked Middleware.mark Response.withHeader
  dsimp only
  rw [Headers.get?_insert_self, Option.some.injEq]
  refine ⟨fun eq => ?_, fun eq => eq ▸ rfl⟩
  have texts := congrArg Text.decode? eq
  rw [Text.decode?_encode, Text.decode?_encode, Option.some.injEq] at texts
  cases m <;> cases m' <;> first | rfl | exact absurd texts (by decide)

/-- A refusal is not marked. -/
theorem lockContended_unmarked (seconds : Nat) :
    (CacheError.lockContended seconds).response.headers.get? Middleware.markField = none := by
  show ((Headers.empty.insert "content-type" _).insert "retry-after" _).get? "x-cache" = none
  rw [Headers.get?_insert_of_ne _ _ (by decide), Headers.get?_insert_of_ne _ _ (by decide)]
  rfl

theorem not_marked_lockContended (m : Mark) (seconds : Nat) : ¬ (CacheError.lockContended seconds).response.Marked m :=
  fun marked => nomatch (lockContended_unmarked seconds).symm.trans marked

/-! ## Handing a response on -/

/-- The fields under other names. -/
def Http.Headers.without (h : Headers) (name : String) : List (String × ByteArray) :=
  h.fields.filter fun f => f.1 != name

theorem Http.Headers.without_insert (h : Headers) (name : String) (value : ByteArray) :
    (h.insert name value).without name = h.without name := by
  simp [without, insert, List.filter_append, List.filter_filter]

/-- A response that hands another one on: its status, its fields apart from the mark, and what arrives of its body, in
whatever chunks. -/
structure Http.Response.HandsOn (out r : Response) : Prop where
  status : out.status = r.status
  fields : out.headers.without Middleware.markField = r.headers.without Middleware.markField
  body : out.body.collect = r.body.collect

namespace Http.Response.HandsOn

variable {out r : Response}

theorem refl (r : Response) : r.HandsOn r := ⟨rfl, rfl, rfl⟩

/-- Bytes that were collected are handed on for the body. -/
theorem collected {bytes : ByteArray} (arrives : r.body.collect = .ok bytes) :
    ({ r with body := .ofBytes bytes } : Response).HandsOn r :=
  ⟨rfl, rfl, (Body.collect_ofBytes bytes).trans arrives.symm⟩

theorem mark (m : Mark) (handed : out.HandsOn r) : (Middleware.mark m out).HandsOn r where
  status := handed.status
  fields := (Headers.without_insert ..).trans handed.fields
  body := handed.body

/-- The other fields are found where they were. -/
theorem get?_eq (handed : out.HandsOn r) {name : String} (other : name ≠ Middleware.markField) :
    out.headers.get? name = r.headers.get? name := by
  rw [Headers.get?, Headers.get?, ← Headers.lookup_filter_ne out.headers.fields _ _ other,
    ← Headers.lookup_filter_ne r.headers.fields _ _ other]
  exact congrArg (List.lookup name) handed.fields

end Http.Response.HandsOn

end ResponseCache
