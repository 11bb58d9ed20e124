import ResponseCache.Proofs.Middleware.Conduct

/-!
# What the middleware stores

A request writes once at most, and when it is done it has written just if its computation was one that stores and its
handler gave a response to be stored (`Procedure.Complete`). What it writes is made of that response (`entryOf_spec`),
so what is held by a store that only the middleware writes to was a success within the limits (`Reach.stored`). That is
the law of `middleware_stores`.
-/

namespace ResponseCache

open Http
open Program (Event Heard)
open Procedure

namespace Procedure

variable {settings : Settings} {v : Visit} {log : List Event}

/-- What an entry has of its response. -/
theorem entryOf_spec (settings : Settings) (v : Visit) (r : Response) (bytes : ByteArray) (now : Instant) :
    (entryOf settings v r bytes now).value.status = r.status ∧
    (entryOf settings v r bytes now).value.body =
      (if v.rule.compress = true ∧ settings.compressionThreshold ≤ bytes.size then Gzip.compress bytes else bytes) ∧
    ((entryOf settings v r bytes now).compressed = true ↔
      v.rule.compress = true ∧ settings.compressionThreshold ≤ bytes.size) ∧
    (entryOf settings v r bytes now).tags = v.rule.tags ∧
    (entryOf settings v r bytes now).deadline = now + min (v.rule.ttl.getD settings.defaultTtl) 86400000 ∧
    (entryOf settings v r bytes now).unpack = .ok (Middleware.stored r bytes) := by
  have packed : (v.rule.compress && reachesThreshold bytes.size settings.compressionThreshold) = true ↔
      v.rule.compress = true ∧ settings.compressionThreshold ≤ bytes.size := by
    rw [Bool.and_eq_true, reachesThreshold, decide_eq_true_iff]
  refine ⟨?_, ?_, ?_, rfl, rfl, unpack_pack ..⟩
  all_goals unfold entryOf StoredResponse.pack
  · split <;> rfl
  · split
    · next asked => rw [if_pos (packed.1 asked)]; rfl
    · next plain => rw [if_neg (plain ∘ packed.2)]; rfl
  · split
    · next asked => exact iff_of_true rfl (packed.1 asked)
    · next plain => exact iff_of_false nofun (plain ∘ packed.2)

/-- One write at most. -/
theorem length_writes_le : ∀ {log : List Event}, Program.Kept (contract settings v) log → (writes log).length ≤ 1
  | [], _ => Nat.zero_le _
  | ⟨now, store, action, reply⟩ :: log, ⟨demanded, _, kept⟩ => by
    have before := length_writes_le kept
    cases action with
    | operate op =>
      cases op with
      | set key e =>
        obtain ⟨-, unwritten, -⟩ := demanded
        show (writes log).length + 1 ≤ 1
        rw [unwritten]
        exact Nat.le_refl _
      | _ => exact before
    | _ => exact before

section Marks

variable {out : Response} (finished : Finished settings v log out)
include finished

/-- A success that is marked as a miss was stored. -/
theorem Finished.stored_of_miss (marked : out.Marked .miss) (success : out.isSuccess = true) :
    ∃ key e, (key, e, .ok ()) ∈ writes log := by
  cases finished with
  | unread _ _ eq =>
    rw [eq] at marked
    cases marked
  | replayed _ _ _ replays _ eq =>
    cases replays <;> cases Response.marked_mark.1 (eq ▸ marked)
  | refused _ _ _ eq => exact (not_marked_lockContended _ _ (eq ▸ marked)).elim
  | @answered c _ _ _ r handed _ ws _ way _ _ stands hands eq =>
    have mark : markOf c r ws = .miss := Response.marked_mark.1 (eq ▸ marked)
    have same : out.isSuccess = handed.isSuccess := by rw [eq]; rfl
    have succeeded : r.isSuccess = true := by
      by_contra failure
      rw [hands.success (eq_false_of_ne_true failure)] at same
      exact failure (same.symm.trans success)
    rw [markOf, way.mark, succeeded, Bool.and_true] at mark
    -- it stores, and not every write has failed
    cases store : c.store <;> rw [store] at mark
    · cases mark
    · cases failures : ws.all (failed ·.2.2) <;> rw [failures] at mark
      · obtain ⟨⟨key, e, reply⟩, mem, done⟩ := List.all_eq_false.1 failures
        rcases reply with reason | ⟨⟩
        · exact absurd rfl done
        · exact ⟨key, e, stands.writes ▸ mem⟩
      · cases mark

/-- A response that is marked as bypassing the cache was not stored. -/
theorem Finished.unstored_of_bypass (marked : out.Marked .bypass) (key : String) (e : Entry) :
    (key, e, .ok ()) ∉ writes log := by
  intro wrote
  cases finished with
  | unread _ start => exact absurd (start ▸ wrote) List.not_mem_nil
  | replayed _ _ _ _ stands | refused _ _ stands => exact absurd (stands.writes ▸ wrote) List.not_mem_nil
  | @answered c _ _ _ r _ _ ws _ way _ written stands _ eq =>
    have mark : markOf c r ws = .bypass := Response.marked_mark.1 (eq ▸ marked)
    rw [stands.writes] at wrote
    have done : ws.all (failed ·.2.2) = false := List.all_eq_false.2 ⟨_, wrote, Bool.false_ne_true⟩
    rw [markOf, way.mark, done, Bool.and_false] at mark
    -- a computation that does not store has written nothing
    split at written
    · next store => rw [store] at mark; cases mark
    · exact absurd (written ▸ wrote) List.not_mem_nil

end Marks

end Procedure

/-- **What a store holds** that only the middleware writes to. -/
theorem Reach.stored {S : Surroundings} (others : ∀ op, S.others op → ∀ key e, op ≠ .set key e) {capacity : Nat}
    {store : Store} (create : Store.create capacity = .ok store) {p : Pool} (reach : Reach S store p) {key : String}
    {e : Entry} (here : p.store.Holds key e) : ∃ v r bytes read, Storable S.settings r bytes ∧ read ≤ p.now ∧
      e = entryOf S.settings v r bytes read := by
  obtain ⟨h, chronicle⟩ := reach.chronicle
  obtain ⟨after, ⟨place, event⟩, before, rfl, carried, -⟩ := chronicle.written create here
  have mem := List.mem_append_right after (List.mem_cons_self (a := (⟨place, event⟩ : Deed)) (l := before))
  obtain ⟨i, is⟩ := chronicle.requester mem carried (fun other => others _ other key e rfl) fun _ _ => nofun
  cases is
  obtain ⟨t, there, wrote⟩ := chronicle.doer mem
  have mem_tasks := List.mem_of_getElem? there
  obtain ⟨now, s, reply, rfl⟩ := carried
  obtain ⟨later, _, split, ⟨-, -, -, r, bytes, read, ⟨now', s', rest, rfl⟩, -, storable, eq⟩, -⟩ :=
    (Procedure.conforms reach t mem_tasks).kept.of_mem wrote
  refine ⟨t.visit, r, bytes, read, storable, ?_, eq⟩
  -- the clock told the time
  have told : ⟨now', s', .clock, read⟩ ∈ t.log := split ▸ List.mem_append_right _ (.tail _ List.mem_cons_self)
  have orderly := reach.orderly t mem_tasks
  have conduct := (reach.conduct others create t mem_tasks).kept.grants told
  obtain rfl := conduct.told rfl
  exact Nat.le_trans (orderly.timely.le_latest told) (Nat.le_trans orderly.latest_le orderly.since_le)

/-- **What the middleware stores.**

Whatever a request is answered on its way, it writes once at most. What it writes goes under its own key, after its
computation was found to be one that stores and its handler gave a success with a body that can be read and is not too
long; the entry has the status and the body of that response, packed if its route asks for it and it is long enough, the
tags of the route, and a deadline that is a day after the clock was read at most. When the request is done, it has
written if all that was so. A success that is marked as a miss was stored, and a response that is marked as bypassing
the cache was not.

So while only requests write, every entry of a store that was empty at first has the status of a success, unpacks to a
body that is not too long, and lives for a day at most. -/
theorem middleware_stores :
    (∀ (settings : Settings) (v : Visit) (log : List Event) (rest : Program Response),
      (v.serve settings).Plays log rest →
        (writes log).length ≤ 1 ∧
        (∀ later earlier now store key e reply,
          log = later ++ (⟨now, store, .operate (.set key e), reply⟩ : Event) :: earlier →
            v.key? settings = some key ∧ Storing settings v earlier ∧
            ∃ (r : Response) (bytes : ByteArray) (read : Instant), runs earlier = [r] ∧
              (∃ now' store' rest', earlier = ⟨now', store', .clock, read⟩ :: rest') ∧
              (200 ≤ r.status ∧ r.status < 300) ∧ r.body.collect = .ok bytes ∧ bytes.size ≤ settings.maxResponseBytes ∧
              e.value.status = r.status ∧
              e.value.body =
                (if v.rule.compress = true ∧ settings.compressionThreshold ≤ bytes.size then Gzip.compress bytes
                  else bytes) ∧
              (e.compressed = true ↔ v.rule.compress = true ∧ settings.compressionThreshold ≤ bytes.size) ∧
              e.tags = v.rule.tags ∧
              e.deadline = read + min (v.rule.ttl.getD settings.defaultTtl) 86400000) ∧
        ∀ response, rest = .done response →
          (writes log ≠ [] ↔ Storing settings v log ∧ ∃ r ∈ runs log, ∃ bytes, (200 ≤ r.status ∧ r.status < 300) ∧
            r.body.collect = .ok bytes ∧ bytes.size ≤ settings.maxResponseBytes) ∧
          (response.Marked .miss → 200 ≤ response.status ∧ response.status < 300 →
            ∃ key e, (key, e, .ok ()) ∈ writes log) ∧
          (response.Marked .bypass → ∀ key e, (key, e, .ok ()) ∉ writes log)) ∧
    ∀ (S : Surroundings), (∀ op, S.others op → ∀ key e, op ≠ .set key e) → ∀ (capacity : Nat) (store : Store),
      Store.create capacity = .ok store → ∀ p, Reach S store p → ∀ key e, p.store.Holds key e →
        (200 ≤ e.value.status ∧ e.value.status < 300) ∧
        (∃ value, e.unpack = .ok value ∧ value.body.size ≤ S.settings.maxResponseBytes) ∧
        e.deadline ≤ p.now + 86400000 := by
  have success : ∀ r : Response, r.isSuccess = true ↔ 200 ≤ r.status ∧ r.status < 300 := fun r => by
    simp [Response.isSuccess]
  refine ⟨fun settings v log rest plays => ?_, fun S others capacity store create p reach key e here => ?_⟩
  · obtain ⟨kept, meets⟩ := (serve_meets settings v).plays (fun _ => trivial) plays
    refine ⟨length_writes_le kept, ?_, ?_⟩
    · rintro later earlier now store key e reply rfl
      obtain ⟨own, -, storing, r, bytes, read, clock, ran, ⟨succeeded, whole, le⟩, rfl⟩ := kept.split.1
      obtain ⟨status, body, compressed, tags, deadline, -⟩ := entryOf_spec settings v r bytes read
      exact ⟨own, storing, r, bytes, read, ran, clock, (success r).1 succeeded, whole, le, status, body, compressed,
        tags, deadline⟩
    · rintro response rfl
      refine ⟨?_, fun marked succeeded => meets.stored_of_miss marked ((success response).2 succeeded),
        meets.unstored_of_bypass⟩
      simpa only [Complete, Storable, success] using Finished.complete meets
  · obtain ⟨v, r, bytes, read, ⟨succeeded, -, le⟩, early, rfl⟩ := reach.stored others create here
    obtain ⟨status, -, -, -, deadline, unpacked⟩ := entryOf_spec S.settings v r bytes read
    refine ⟨by rw [status]; exact (success r).1 succeeded, ⟨_, unpacked, le⟩, ?_⟩
    rw [deadline]
    exact Nat.add_le_add early (Nat.min_le_right ..)

/-- The first request for a key stores what its handler answers, for a second and packed. -/
theorem middleware_stores_first : ∃ (S : Surroundings) (v : Visit) (log : List Event) (r : Response) (store : Store)
    (p : Pool) (e : Entry), S.comes v ∧ (v.serve S.settings).Plays log (.done r) ∧ r.Marked .miss ∧ writes log ≠ [] ∧
      (writes log).length ≤ 1 ∧ Reach S store p ∧ p.store.Holds "k" e ∧ e.compressed = true ∧
      e.deadline ≤ p.now + 86400000 := by
  let answer : Response := ⟨203, .empty, .empty⟩
  let v : Visit := ⟨{ key := { override := some (.literal "k") }, ttl := some 1 }, "/", [], some 0,
    ⟨"GET", { path := "/" }, .empty, .empty⟩⟩
  let S : Surroundings :=
    { settings := { enableStats := false, compressionThreshold := 0 }
      comes := (· = v)
      answers := fun _ _ r => r = answer
      others := fun _ => False
      mayFail := fun _ => False
      mayDrop := fun _ => False }
  -- the stores along the run
  let empty (misses : UInt64) (locks : Std.TreeMap String Lock) (token : Token) : Store :=
    ⟨⟨∅, ∅, 0, 1, { misses := misses }, by decide⟩, ∅, locks, token⟩
  let locks : Std.TreeMap String Lock := (∅ : Std.TreeMap String Lock).insert "k" ⟨1, 0, 5000⟩
  let entry : Entry := entryOf S.settings v answer .empty 0
  let full : Store := (empty 1 locks 1).set "k" entry
  have missed : Answered S 0 0 (empty 0 ∅ 0) {} (.operate (.get "k")) (.ok none) (empty 1 ∅ 0) {} := .operate _
  have locked : Answered S 0 0 (empty 1 ∅ 0) {} (.operate (.acquire "k" 5000)) (.ok (some 1)) (empty 1 locks 1) {} :=
    .operate (.acquire "k" 5000)
  have handled : S.answers 0 v.request answer := rfl
  have wrote : Answered S 0 0 (empty 1 locks 1) {} (.operate (.set "k" entry)) (.ok ()) full {} := .operate _
  have released : Answered S 0 0 full {} (.operate (.release "k" 1)) (.ok ()) (full.release "k" 1).2 {} := .operate _
  have chronicle := (show Chronicle S (empty 0 ∅ 0) [] _ from .start).step (.arrive _ (v := v) rfl)
    |>.step (.turn (i := 0) rfl rfl missed) |>.step (.turn (i := 0) rfl rfl locked)
    |>.step (.turn (i := 0) rfl rfl (.hold _)) |>.step (.turn (i := 0) rfl rfl (.handle handled))
    |>.step (.turn (i := 0) rfl rfl .clock) |>.step (.turn (i := 0) rfl rfl wrote)
    |>.step (.turn (i := 0) rfl rfl (.disarm _)) |>.step (.turn (i := 0) rfl rfl released)
  have plays := chronicle.reach.plays _ List.mem_cons_self _ rfl
  obtain ⟨requests, pools⟩ := middleware_stores
  obtain ⟨once, -, finished⟩ := requests S.settings v _ _ plays
  obtain ⟨complete, -⟩ := finished _ rfl
  have storable : (200 ≤ answer.status ∧ answer.status < 300) ∧ answer.body.collect = .ok .empty ∧
      ByteArray.empty.size ≤ S.settings.maxResponseBytes := ⟨by decide, rfl, by decide⟩
  have wrote := complete.2 ⟨.inl ⟨1, List.mem_cons_self⟩, answer, List.mem_cons_self, .empty, storable⟩
  have here : (full.release "k" 1).2.Holds "k" entry := rfl
  obtain ⟨-, -, early⟩ := pools S (fun _ no => no.elim) 1 _ rfl _ chronicle.reach "k" entry here
  exact ⟨S, v, _, _, _, _, entry, rfl, plays, Response.marked_mark.2 rfl, wrote, once, chronicle.reach, here, rfl,
    early⟩

end ResponseCache
