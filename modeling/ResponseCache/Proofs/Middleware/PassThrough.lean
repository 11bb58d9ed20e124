import ResponseCache.Proofs.Middleware.Serving

/-!
# Bodies pass through the middleware

A body is read chunk by chunk to be stored, and may turn out to be too long in the middle. What was read is not lost:
a body within the limit comes out whole, or fails as it does, and a longer one comes back as it was. So what is handed
on of a response is that response, whether it was to be stored or not, and whatever came of the attempt; only a body
that breaks off within the limit is not handed on. Serving adds a mark to it and nothing else (`Finished.handsOn`,
`bodies_pass_through`).
-/

namespace ResponseCache

open Http
open Program (Event)
open Procedure

/-- **What the handler answered** is handed on, if its body ends well. -/
theorem Procedure.Finished.handsOn {settings : Settings} {v : Visit} {log : List Event} {out r : Response}
    (finished : Finished settings v log out) (ran : r ∈ runs log) (whole : r.body.failure = none) : out.HandsOn r := by
  cases finished with
  | unread _ start => exact absurd (start ▸ ran) List.not_mem_nil
  | replayed _ _ _ _ stands | refused _ _ stands => exact absurd (stands.runs ▸ ran) List.not_mem_nil
  | answered _ _ answers _ stands handed eq =>
    rw [stands.runs] at ran
    rcases answers with rfl | ⟨rfl, -⟩
    · cases List.mem_singleton.1 ran
      exact eq ▸ (handed.whole whole).mark _
    · cases ran

/-- **Bodies pass through.**

However a body comes in chunks: if it ends well, buffering it gives all its bytes just if they are within the limit; if
it breaks off, buffering fails for the same reason just if what comes before is within the limit; and any longer body
comes back with the same bytes and the same end.

So if a request was answered by a handler with a body that ends well, its client gets the status, the fields and the
bytes that the handler gave, with the mark in the place of any that was there, whatever the settings, and whatever the
store answers. -/
theorem bodies_pass_through :
    (∀ (limit : Nat) (b : Body),
      (b.failure = none → (b.buffer limit = .complete b.bytes ↔ b.size ≤ limit)) ∧
      (∀ reason, b.failure = some reason → (b.buffer limit = .failed reason ↔ b.size ≤ limit)) ∧
      (limit < b.size → ∃ c, b.buffer limit = .tooLong c ∧ c.bytes = b.bytes ∧ c.failure = b.failure)) ∧
    ∀ (settings : Settings) (v : Visit) (log : List Event) (out : Response), (v.serve settings).Plays log (.done out) →
      ∀ r ∈ runs log, r.body.failure = none →
        out.status = r.status ∧
        out.headers.without Middleware.markField = r.headers.without Middleware.markField ∧
        out.body.collect = .ok r.body.bytes := by
  refine ⟨fun limit b => ⟨fun whole => ?_, fun reason broken => ?_, fun long => ?_⟩, ?_⟩
  · have arrives : b.collect = .ok b.bytes := by rw [Body.collect, whole]
    rw [Body.buffer_eq_complete_iff, Body.size_bytes]
    exact and_iff_right arrives
  · rw [Body.buffer_eq_failed_iff]
    exact and_iff_right broken
  · exact ⟨b, Body.buffer_eq_tooLong_iff.2 ⟨rfl, long⟩, rfl, rfl⟩
  · intro settings v log out plays r ran whole
    have handed : out.HandsOn r := (finished_of_plays plays).handsOn ran whole
    exact ⟨handed.status, handed.fields, by rw [handed.body, Body.collect, whole]⟩

/-- Four bytes in three chunks, one of them empty, are too long to be stored, and reach the client with the fields that
they came with; cut short after three bytes they fail within the limit, and within a smaller limit they come back. -/
theorem bodies_pass_through_chunks : ∃ (settings : Settings) (v : Visit) (log : List Event) (r out : Response)
    (broken : Body), (v.serve settings).Plays log (.done out) ∧ runs log = [r] ∧ r.body.failure = none ∧
      settings.maxResponseBytes = 3 ∧ r.body.chunks = [⟨#[1, 2]⟩, .empty, ⟨#[3, 4]⟩] ∧ out.status = 203 ∧
      out.headers.without "x-cache" = [("etag", ⟨#[34, 34]⟩)] ∧ out.body.collect = .ok ⟨#[1, 2, 3, 4]⟩ ∧
      broken.failure = some "reset" ∧ broken.buffer 3 = .failed "reset" ∧
      ∃ c, broken.buffer 2 = .tooLong c ∧ c.bytes = ⟨#[1, 2, 3]⟩ ∧ c.failure = some "reset" := by
  let answer : Response := ⟨203, ⟨[("x-cache", ⟨#[49]⟩), ("etag", ⟨#[34, 34]⟩)]⟩,
    ⟨[⟨#[1, 2]⟩, .empty, ⟨#[3, 4]⟩], none⟩⟩
  let v : Visit := ⟨{ key := { override := some (.literal "k") } }, "/", [], some 0,
    ⟨"GET", { path := "/" }, .empty, .empty⟩⟩
  let S : Surroundings :=
    { settings := { enableStats := false, maxResponseBytes := 3 }
      comes := (· = v)
      answers := fun _ _ r => r = answer
      others := fun _ => False
      mayFail := fun _ => False
      mayDrop := fun _ => False }
  -- the stores along the run
  let empty (misses : UInt64) (locks : Std.TreeMap String Lock) (token : Token) : Store :=
    ⟨⟨∅, ∅, 0, 1, { misses := misses }, by decide⟩, ∅, locks, token⟩
  let locks : Std.TreeMap String Lock := (∅ : Std.TreeMap String Lock).insert "k" ⟨1, 0, 5000⟩
  have missed : Answered S 0 0 (empty 0 ∅ 0) {} (.operate (.get "k")) (.ok none) (empty 1 ∅ 0) {} := .operate _
  have locked : Answered S 0 0 (empty 1 ∅ 0) {} (.operate (.acquire "k" 5000)) (.ok (some 1)) (empty 1 locks 1) {} :=
    .operate (.acquire "k" 5000)
  have handled : S.answers 0 v.request answer := rfl
  have released : Answered S 0 0 (empty 1 locks 1) {} (.operate (.release "k" 1)) (.ok ())
    ((empty 1 locks 1).release "k" 1).2 {} := .operate _
  have chronicle := (show Chronicle S (empty 0 ∅ 0) [] _ from .start).step (.arrive _ (v := v) rfl)
    |>.step (.turn (i := 0) rfl rfl missed) |>.step (.turn (i := 0) rfl rfl locked)
    |>.step (.turn (i := 0) rfl rfl (.hold _)) |>.step (.turn (i := 0) rfl rfl (.handle handled))
    |>.step (.turn (i := 0) rfl rfl (.disarm _)) |>.step (.turn (i := 0) rfl rfl released)
  have plays := chronicle.reach.plays _ List.mem_cons_self _ rfl
  obtain ⟨buffers, clients⟩ := bodies_pass_through
  obtain ⟨status, fields, bytes⟩ := clients S.settings v _ _ plays answer List.mem_cons_self rfl
  let broken : Body := ⟨[⟨#[1, 2]⟩, ⟨#[3]⟩], some "reset"⟩
  obtain ⟨-, fails, -⟩ := buffers 3 broken
  obtain ⟨-, -, back⟩ := buffers 2 broken
  exact ⟨S.settings, v, _, answer, _, broken, plays, rfl, rfl, rfl, rfl, status, fields, bytes, rfl,
    (fails "reset" rfl).2 (by decide), back (by decide)⟩

end ResponseCache
