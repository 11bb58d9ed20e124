import ResponseCache.Proofs.Middleware.Conduct

/-!
# Where replayed responses come from

A response that is marked as replayed repeats one that a handler gave before. Its request found an entry that had not
outlived its time, and of all that was done to the store since that entry was written nothing removes it
(`Chronicle.found`). The request that wrote it has the same key, and its log has the response that the entry stands for
(`Conduct.Origin`). So provenance is told by the chronicle of the pool (`replayed_fresh`).
-/

namespace ResponseCache

open Http
open Program (Event Heard Timely)

/-- A response repeats another one: the same status and body, and the same content type unless that cannot be read. -/
structure Http.Response.Repeats (r original : Response) : Prop where
  status : r.status = original.status
  contentType : (∀ value, original.headers.get? "content-type" = some value → isVisible value = true) →
    r.headers.get? "content-type" = original.headers.get? "content-type"
  body : ∃ bytes, original.body.collect = .ok bytes ∧ r.body.collect = .ok bytes

/-- A stored content type is sent again if it can be. -/
theorem replay_contentType (m : Mark) (value : StoredResponse) :
    (Middleware.replay m value).headers.get? "content-type" = value.contentType.bind legalValue? := by
  refine (Headers.get?_insert_of_ne _ _ (by decide)).trans ?_
  dsimp only
  generalize value.contentType.bind legalValue? = contentType
  cases contentType with
  | none => rfl
  | some contentType => exact Headers.get?_insert_empty _

/-- What was stored of a successful response repeats it when it is replayed. -/
theorem replay_repeats {original : Response} {bytes : ByteArray} (success : original.isSuccess = true)
    (whole : original.body.collect = .ok bytes) (m : Mark) :
    (Middleware.replay m (Middleware.stored original bytes)).Repeats original where
  status := by
    simp only [Response.isSuccess, Bool.and_eq_true, decide_eq_true_eq] at success
    exact if_pos ⟨UInt16.le_trans (by decide) success.1, UInt16.le_trans (UInt16.le_of_lt success.2) (by decide)⟩
  contentType visible := by
    refine (replay_contentType m _).trans ?_
    show ((original.headers.get? "content-type").bind visibleText?).bind legalValue? = _
    cases type : original.headers.get? "content-type" with
    | none => rfl
    | some value =>
      obtain ⟨text, read⟩ := visibleText?_of_visible (visible value type)
      have same := encode_of_visibleText? read
      have legal : legalValue? text = some value := by
        rw [legalValue?_of_visible (same.symm ▸ visible value type), same]
      rw [Option.bind_some, read, Option.bind_some, legal]
  body := ⟨bytes, whole, Body.collect_ofBytes bytes⟩

open Conduct in
/-- **A replayed response is fresh and has its provenance.** In a pool whose entries nobody else writes, let the
response to a request be marked as replayed. Then a look-up of its key found an entry there that a request with the
same key had written before, and this one had run the handler of its endpoint: the response repeats the successful one
that this handler gave. The entry was found within the time to live of the route that wrote it, a day at most, and
nothing that was done to the store between the two was a write under the key, its deletion, a clearing, or the
invalidation of a tag of that route. -/
theorem replayed_fresh {S : Surroundings} (others : ∀ op, S.others op → ∀ key e, op ≠ .set key e) {capacity : Nat}
    {store : Store} (create : Store.create capacity = .ok store) {h : List Deed} {p : Pool}
    (chronicle : Chronicle S store h p) {i : Nat} {t : Task} (here : p.tasks[i]? = some t) {r : Response}
    (answered : t.next = some (.done r)) (replayed : r.Marked .hit ∨ r.Marked .wait) :
    ∃ (key : String) (entry : Entry) (looked wrote : Instant) (s s' : Store) (after between before : List Deed)
      (j : Nat) (u : Task),
      h = after ++ ⟨some i, ⟨looked, s, .operate (.get key), .ok (some entry)⟩⟩ :: between ++
        ⟨some j, ⟨wrote, s', .operate (.set key entry), .ok ()⟩⟩ :: before ∧
      t.visit.key? S.settings = some key ∧ p.tasks[j]? = some u ∧ u.visit.key? S.settings = some key ∧
      (∃ endpoint request original, u.visit.endpoint = some endpoint ∧
        Heard (.handle endpoint request) original (logOf j before) ∧ original.isSuccess = true ∧ r.Repeats original) ∧
      looked < wrote + min (u.visit.rule.ttl.getD S.settings.defaultTtl) Service.maxTtl ∧
      entry.tags = u.visit.rule.tags ∧
      ∀ d ∈ between, ∀ op, d.event.Carried op → ¬ op.Removes key entry := by
  have conduct := chronicle.reach.conduct others create
  -- the look-up that the response shows
  obtain ⟨key, value, m, own, ⟨entry, ⟨looked, s, mem⟩, unpacked⟩, rfl⟩ :=
    (conduct t (List.mem_of_getElem? here)).meets _ answered replayed
  obtain ⟨after, rest, split⟩ := List.mem_iff_append.1 (chronicle.deed here mem)
  obtain ⟨live, between, ⟨place, e⟩, before, rfl, carried, since⟩ := (split ▸ chronicle).found create
  have whole : h = (after ++ ⟨some i, ⟨looked, s, .operate (.get key), .ok (some entry)⟩⟩ :: between) ++
      ⟨place, e⟩ :: before := by rw [split, List.append_assoc, List.cons_append]
  -- the request that wrote what it found
  obtain ⟨q, q', -, does, -⟩ := (whole ▸ chronicle).split
  cases place with
  | none =>
    rcases does.nobody carried with other | ⟨g, -, eq⟩
    · exact absurd rfl (others _ other key entry)
    · cases eq
  | some j =>
    obtain ⟨u, there, -⟩ := chronicle.doer (i := j) (e := e) (by rw [whole]; simp)
    have log : u.log = logOf j (after ++ ⟨some i, ⟨looked, s, .operate (.get key), .ok (some entry)⟩⟩ :: between) ++
        e :: logOf j before := by
      rw [chronicle.log there, whole, logOf_append, logOf_cons_self]
    obtain ⟨comes, kept, -⟩ := conduct u (List.mem_of_getElem? there)
    have timely := (chronicle.reach.orderly u (List.mem_of_getElem? there)).timely
    rw [log] at kept timely
    obtain ⟨wrote, s', result, rfl⟩ := carried
    obtain ⟨seeks | ⟨theirs, endpoint, request, original, bytes, read, has, heard, success, collected, stands, tags,
      ⟨s₀, told⟩, deadline⟩, -, -⟩ := kept.split
    · exact seeks.elim
    cases unpacked.symm.trans stands
    have le : read ≤ wrote := Nat.le_trans (timely.tail.2.le_latest told) timely.tail.1
    refine ⟨key, entry, looked, wrote, s, s', after, between, before, j, u, whole, own, there, theirs,
      ⟨endpoint, request, original, has, heard, success, replay_repeats success collected m⟩, ?_, tags, since⟩
    exact Nat.lt_of_lt_of_le live (deadline ▸ Nat.add_le_add_right le _)

/-- A second request is answered with what the first one stored. -/
theorem replayed_fresh_second : ∃ (S : Surroundings) (store : Store) (h : List Deed) (p : Pool) (t : Task)
    (r : Response), Chronicle S store h p ∧ p.tasks[1]? = some t ∧ t.next = some (.done r) ∧ r.Marked .hit ∧
      ∃ original, original.status = 203 ∧ r.Repeats original := by
  let answer : Response := ⟨203, .empty, .empty⟩
  let v : Visit := ⟨{ key := { override := some (.literal "k") }, compress := false, ttl := some 1 }, "/", [], some 0,
    ⟨"GET", { path := "/" }, .empty, .empty⟩⟩
  let S : Surroundings :=
    { settings := { enableStats := false }
      comes := (· = v)
      answers := fun _ _ r => r = answer
      others := fun _ => False
      mayFail := fun _ => False
      mayDrop := fun _ => False }
  -- the stores along the run
  let empty (misses : UInt64) (locks : Std.TreeMap String Lock) (token : Token) : Store :=
    ⟨⟨∅, ∅, 0, 1, { misses := misses }, by decide⟩, ∅, locks, token⟩
  let locks : Std.TreeMap String Lock := (∅ : Std.TreeMap String Lock).insert "k" ⟨1, 0, 5000⟩
  let entry : Entry := ⟨⟨203, none, .empty⟩, 1, [], false⟩
  let full : Store := (empty 1 locks 1).set "k" entry
  have missed : Answered S 0 0 (empty 0 ∅ 0) {} (.operate (.get "k")) (.ok none) (empty 1 ∅ 0) {} := .operate _
  have locked : Answered S 0 0 (empty 1 ∅ 0) {} (.operate (.acquire "k" 5000)) (.ok (some 1)) (empty 1 locks 1) {} :=
    .operate (.acquire "k" 5000)
  have handled : S.answers 0 v.request answer := rfl
  have wrote : Answered S 0 0 (empty 1 locks 1) {} (.operate (.set "k" entry)) (.ok ()) full {} := .operate _
  have released : Answered S 0 0 full {} (.operate (.release "k" 1)) (.ok ()) (full.release "k" 1).2 {} := .operate _
  have found : Answered S 0 0 (full.release "k" 1).2 {} (.operate (.get "k")) (.ok (some entry))
    ((full.release "k" 1).2.get 0 "k").2 {} := .operate _
  have chronicle := (show Chronicle S (empty 0 ∅ 0) [] _ from .start).step (.arrive _ (v := v) rfl)
    |>.step (.turn (i := 0) rfl rfl missed) |>.step (.turn (i := 0) rfl rfl locked)
    |>.step (.turn (i := 0) rfl rfl (.hold _)) |>.step (.turn (i := 0) rfl rfl (.handle handled))
    |>.step (.turn (i := 0) rfl rfl .clock) |>.step (.turn (i := 0) rfl rfl wrote)
    |>.step (.turn (i := 0) rfl rfl (.disarm _)) |>.step (.turn (i := 0) rfl rfl released)
    |>.step (.arrive _ (v := v) rfl) |>.step (.turn (i := 1) rfl rfl found)
  have marked : (Middleware.replay .hit entry.value).Marked .hit := Response.marked_mark.2 rfl
  obtain ⟨_, _, _, _, _, _, _, _, _, _, _, -, -, -, -, ⟨_, _, original, -, -, -, repeats⟩, -⟩ :=
    replayed_fresh (S := S) (fun _ no => no.elim) (show Store.create 1 = .ok (empty 0 ∅ 0) from rfl) chronicle (i := 1)
      rfl rfl (.inl marked)
  exact ⟨S, empty 0 ∅ 0, _, _, _, _, chronicle, rfl, rfl, marked, original, repeats.status.symm, repeats⟩

end ResponseCache
