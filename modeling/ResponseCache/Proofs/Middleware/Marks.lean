import ResponseCache.Proofs.Middleware.Serving

/-!
# One mark on every response

Whatever way a request goes through the middleware, whatever it is answered on the way, and whatever its handler puts
on the response, there is one mark on the response in the end, and it is one of the four (`Finished.one_or_refused`).
Two ways have no mark: the refusal of a request whose key is locked, under the policy that refuses (`Refused`), and
that of a request whose body is needed for its key and cannot be read (`Procedure.serve_of_not_readable`).
-/

namespace ResponseCache

open Http
open Program (Event)
open Procedure

namespace Marks

variable {settings : Settings} {v : Visit} {log : List Event} {out : Response}

/-- A response has one field that marks it, and what stands there is a mark. -/
def One (out : Response) : Prop := ∃ m : Mark, out.headers.values Middleware.markField = [Text.encode m.text]

/-- What was marked before is marked anew. -/
theorem mark_one (m : Mark) (r : Response) : One (Middleware.mark m r) := ⟨m, Headers.values_insert_self ..⟩

/-- A request is told to come back after the time that its key may be locked, under the policy that refuses and after an
attempt that found the key locked. -/
structure Refused (settings : Settings) (v : Visit) (log : List Event) (out : Response) : Prop where
  policy : v.policy settings = .fail
  locked : .ok none ∈ attempts log
  response : out = (CacheError.lockContended (Service.retryAfter (v.timeout settings))).response

theorem Refused.unmarked (refused : Refused settings v log out) : out.headers.values Middleware.markField = [] := by
  rw [refused.response]
  refine (Headers.values_insert_of_ne _ _ (by decide)).trans ?_
  exact Headers.values_insert_of_ne _ _ (by decide)

end Marks

/-- **A request that is done** has one mark on its response or was refused, if its body could be read. -/
theorem Procedure.Finished.one_or_refused {settings : Settings} {v : Visit} {log : List Event} {out : Response}
    (finished : Finished settings v log out) (read : v.Readable) :
    Marks.One out ∨ Marks.Refused settings v log out := by
  cases finished with
  | unread unread => exact nomatch unread.symm.trans (readable_iff.2 read)
  | replayed _ _ _ _ _ eq => exact .inl (eq ▸ Marks.mark_one _ _)
  | refused _ policy stands eq => exact .inr ⟨policy, stands.attempts ▸ List.mem_singleton_self _, eq⟩
  | answered _ _ _ _ _ _ eq => exact .inl (eq ▸ Marks.mark_one _ _)

/-- **Every response has one mark**, whatever its handler put on it and whatever the store answered, but for the refusal
of a locked key, which has none; so long as the body of the request can be read where the key needs it. -/
theorem marked_once (settings : Settings) (v : Visit) (readable : v.Readable) (log : List Event) (out : Response)
    (plays : (v.serve settings).Plays log (.done out)) :
    (∃ m : Mark, out.headers.values Middleware.markField = [Text.encode m.text]) ∨
      (Marks.Refused settings v log out ∧ out.headers.values Middleware.markField = []) := by
  obtain one | refused := (finished_of_plays plays).one_or_refused readable
  · exact .inl one
  · exact .inr ⟨refused, refused.unmarked⟩

/-- A handler that puts two marks of its own on its response, behind a store that is down. -/
theorem marked_once_anew : ∃ (settings : Settings) (v : Visit) (log : List Event) (answer out : Response),
    v.Readable ∧ v.policy settings = .fail ∧ answer.headers.values "x-cache" = [⟨#[49]⟩, ⟨#[50]⟩] ∧
      runs log = [answer] ∧ (v.serve settings).Plays log (.done out) ∧
      ∃ m : Mark, out.headers.values Middleware.markField = [Text.encode m.text] := by
  let answer : Response := ⟨200, ⟨[("x-cache", ⟨#[49]⟩), ("x-cache", ⟨#[50]⟩)]⟩, .empty⟩
  let settings : Settings := { enableStats := false }
  let v : Visit := ⟨{ key := { override := some (.literal "k") }, contention := some .fail }, "/", [], some 0,
    ⟨"GET", { path := "/" }, .empty, .empty⟩⟩
  let store : Store := ⟨⟨∅, ∅, 0, 1, {}, by decide⟩, ∅, ∅, 0⟩
  have asked : (v.serve settings).Plays [] (.perform (.operate (.get "k")) _) := .start
  have failed : (v.serve settings).Plays _ (.perform (.handle 0 v.request) _) :=
    asked.answer 0 store (Except.error (CacheError.backend "down") : Except CacheError (Option Entry))
  have plays : (v.serve settings).Plays _ (.done (Middleware.mark .bypass answer)) := failed.answer 0 store answer
  have readable : v.Readable := nofun
  rcases marked_once settings v readable _ _ plays with one | ⟨refused, -⟩
  · exact ⟨settings, v, _, answer, _, readable, rfl, rfl, rfl, plays, one⟩
  · cases refused.locked

/-- A request whose body is needed for its key is turned away without a mark if the body is too long. -/
theorem too_long_unmarked : ∃ (settings : Settings) (v : Visit) (out : Response),
    v.policy settings = .wait ∧ v.request.body.failure = none ∧ (v.serve settings).Plays [] (.done out) ∧
      out.status = 413 ∧ out.headers.values Middleware.markField = [] := by
  let bytes : ByteArray := ⟨Array.replicate 1048577 97⟩
  let v : Visit := ⟨{ key := { body := .all } }, "/items", [], some 0,
    ⟨"POST", { path := "/items" }, .empty, .ofBytes bytes⟩⟩
  have unread : ¬ v.Readable := fun readable => by
    have short : v.request.body.size ≤ 1048576 := (readable rfl).2
    rw [← Body.size_bytes, Body.bytes_ofBytes] at short
    have long : bytes.size = 1048577 := Array.size_replicate
    omega
  have turned : v.serve {} = .done (.bare 413) := serve_of_not_readable unread {}
  exact ⟨{}, v, .bare 413, rfl, rfl, turned ▸ .start, rfl, rfl⟩

end ResponseCache
