import ResponseCache.Proofs.Middleware.Procedure

/-!
# Requests keep to their procedure

Along the program of a request, from its look-up to its mark, every action is as the procedure demands, and the request
ends as it says (`serve_meets`). What else there is to say about the way of a request follows from that: no other module
goes along the program.
-/

namespace ResponseCache.Procedure

open Http
open Program (Event Heard Meets heldBy)

variable {settings : Settings} {v : Visit} {log : List Event} {key : String} {held : List Guard} {os : List Outcome}
  {a : List (Except CacheError (Option Token))} {rs : List Response}
  {ws : List (String × Entry × Except CacheError Unit)} {l : Bool} {f : Facts}

/-! ## Looking for a value -/

theorem clock_meets (settled : due log = none) : Program.clock.Meets (contract settings v)
    (fun log' told => ∃ now store, log' = ⟨now, store, .clock, told⟩ :: log) log :=
  .act settled fun now store _ _ => ⟨now, store, rfl⟩

theorem count_meets (stands : Stands log held ⟨booked settings os, a, rs, ws, l⟩) (outcome : Outcome) :
    (Service.count settings outcome).Meets (contract settings v) (fun log' _ =>
      Stands log' held ⟨booked settings (outcome :: os), a, rs, ws, l⟩ ∧ log <:+ log') log := by
  refine Meets.grows ?_
  unfold Service.count
  split
  · next on =>
    refine .act ⟨stands.settled, on⟩ fun now store _ _ => ⟨rfl, stands.held, ?_⟩
    rw [facts_count, stands.facts, booked, booked, if_pos on, if_pos on]
  · next off =>
    have none : ∀ os, booked settings os = [] := fun os => if_neg off
    refine .pure ⟨stands.settled, stands.held, ?_⟩
    rw [stands.facts, none, none]

theorem get_meets (settled : due log = none) (own : v.key? settings = some key) :
    (Service.get key).Meets (contract settings v) (fun log' result => ∃ now store reply,
      log' = ⟨now, store, .operate (.get key), reply⟩ :: log ∧ result = looked reply) log := by
  rw [get_eq]
  refine Meets.bind (q := fun log' reply => ∃ now store, log' = ⟨now, store, .operate (.get key), reply⟩ :: log)
    (.act ⟨settled, own⟩ fun now store reply _ => ⟨now, store, rfl⟩) ?_
  rintro _ reply ⟨now, store, rfl⟩
  exact .pure ⟨now, store, reply, rfl, rfl⟩

/-- What came of looking for a value until the deadline, at most so often. -/
def Polled (key : String) (deadline : Instant) (most : Nat) (log log' : List Event) : Option StoredResponse → Prop
  | some value => Found key value log'
  | none => ∃ n rounds, Rounds key deadline n rounds ∧ (n = most ∧ log' = rounds ++ log ∨
      ∃ looks reads told s s' reply, (∀ value, looked reply ≠ .ok (some value)) ∧ deadline ≤ told ∧
        log' = ⟨reads, s', .clock, told⟩ :: ⟨looks, s, .operate (.get key), reply⟩ :: (rounds ++ log))

theorem poll_meets (own : v.key? settings = some key) (begun : log ≠ []) {deadline : Instant} (polls : Nat) :
    ∀ {n : Nat} {rounds : List Event}, Rounds key deadline n rounds → Stands (rounds ++ log) held f →
      (Service.poll key deadline polls).Meets (contract settings v) (fun log' found =>
        Stands log' held f ∧ Polled key deadline (n + polls) log log' found) (rounds ++ log) := by
  induction polls with
  | zero => exact fun rounds stands => .pure ⟨stands, _, _, rounds, .inl ⟨rfl, rfl⟩⟩
  | succ polls ih =>
    intro n rounds before stands
    have begun : rounds ++ log ≠ [] := List.append_ne_nil_of_right_ne_nil _ begun
    unfold Service.poll
    refine (get_meets stands.settled own).bind ?_
    rintro _ _ ⟨looks, s, reply, rfl, rfl⟩
    have stands := stands.get begun looks s key reply
    split
    · next value found =>
      obtain ⟨entry, rfl, unpacked⟩ := looked_eq_some found
      exact .pure ⟨stands, entry, ⟨looks, s, List.mem_cons_self⟩, unpacked⟩
    · next missed =>
      refine (clock_meets stands.settled).bind ?_
      rintro _ told ⟨reads, s', rfl⟩
      have stands := stands.clock reads s' told
      split
      · next late =>
        exact .pure ⟨stands, n, rounds, before, .inr ⟨looks, reads, told, s, s', reply, missed, late, rfl⟩⟩
      · next early =>
        refine Meets.bind (q := fun log' _ => ∃ wakes s'', log' =
            ⟨wakes, s'', .sleep (min Service.pollInterval (deadline - told)), ()⟩ :: ⟨reads, s', .clock, told⟩ ::
              ⟨looks, s, .operate (.get key), reply⟩ :: (rounds ++ log))
          (.act stands.settled fun wakes s'' _ _ => ⟨wakes, s'', rfl⟩) ?_
        rintro _ - ⟨wakes, s'', rfl⟩
        rw [← Nat.add_assoc, Nat.add_right_comm]
        exact ih (.more before missed (Nat.lt_of_not_le early)) (stands.sleep wakes s'' _)

/-- What came of waiting for a value. -/
def Awaited (key : String) (timeout : Millis) (log : List Event) : Option StoredResponse → Prop
  | some value => Found key value log
  | none => Vain key timeout log

theorem await_meets (own : v.key? settings = some key) (stands : Stands log held f) (timeout : Millis) :
    (Service.await key timeout).Meets (contract settings v) (fun log' found =>
      Stands log' held f ∧ Awaited key timeout log' found) log := by
  unfold Service.await
  refine (clock_meets stands.settled).bind ?_
  rintro _ start ⟨begins, s, rfl⟩
  have begun : (⟨begins, s, .clock, start⟩ :: log : List Event) ≠ [] := List.cons_ne_nil _ _
  refine (poll_meets own begun _ .none (stands.clock begins s start)).mono fun log₁ found polled => ?_
  obtain ⟨stands, polled⟩ := polled
  refine ⟨stands, ?_⟩
  cases found with
  | some value => exact polled
  | none =>
    -- what was waited for is a part of the log, from the reading of the clock on
    have part : ∀ later : List Event,
        later ++ [⟨begins, s, .clock, start⟩] <:+: later ++ ⟨begins, s, .clock, start⟩ :: log :=
      fun later => List.IsPrefix.isInfix ⟨log, by simp⟩
    obtain ⟨n, rounds, looks, ⟨rfl, rfl⟩ | ⟨_, _, _, _, _, _, missed, late, rfl⟩⟩ := polled
    · rw [Nat.zero_add] at looks
      exact .worn looks (part rounds)
    · exact .late looks missed late (part (_ :: _ :: rounds))

/-! ## Deciding -/

/-- How the way of a request was decided. -/
def Decided (settings : Settings) (v : Visit) (key : String) (log : List Event) : Resolution → Prop
  | .hit value => Found key value log ∧ Stands log [] ⟨booked settings [.hit], [], [], [], false⟩
  | .waited value => Found key value log ∧ Stands log [] ⟨booked settings [.wait], [.ok none], [], [], false⟩
  | .rejected seconds => seconds = Service.retryAfter (v.timeout settings) ∧ v.policy settings = .fail ∧
      Stands log [] ⟨booked settings [.rejection], [.ok none], [], [], false⟩
  | .compute c => Undertaken settings v c log

theorem degrade_meets (way : Way settings v .bypassing [.bypass, .backendError] a l)
    (stands : Stands log [] ⟨booked settings [], a, [], [], l⟩) :
    (Service.degrade settings).Meets (contract settings v) (Decided settings v key) log := by
  unfold Service.degrade
  refine (count_meets stands _).bind fun log₁ _ counted => ?_
  exact (count_meets counted.1 _).bind fun log₂ _ counted => .pure ⟨_, a, l, way, counted.1, nofun⟩

/-- What a request does about a key that is locked. -/
theorem contend_meets (own : v.key? settings = some key)
    (stands : Stands log [] ⟨booked settings [], [.ok none], [], [], false⟩) :
    (Service.contend settings key (v.timeout settings) (v.policy settings)).Meets (contract settings v)
      (Decided settings v key) log := by
  cases policy : v.policy settings with
  | wait =>
    refine (await_meets own stands _).bind fun log₁ found awaited => ?_
    obtain ⟨stands, awaited⟩ := awaited
    split
    · refine (count_meets stands _).bind fun log₂ _ counted => .pure ?_
      exact ⟨Found.mono counted.2.subset awaited, counted.1⟩
    · refine (count_meets stands _).bind fun log₂ _ counted => .pure ?_
      refine ⟨_, _, _, .overdue policy, counted.1, fun _ key' own' => ?_⟩
      cases own.symm.trans own'
      exact Vain.mono counted.2 awaited
  | bypass =>
    exact (count_meets stands _).bind fun log₁ _ counted => .pure ⟨_, _, _, .bypassed policy, counted.1, nofun⟩
  | fail => exact (count_meets stands _).bind fun log₁ _ counted => .pure ⟨rfl, policy, counted.1⟩

/-- What came of an attempt to lock the key. -/
def Tried (key : String) (log : List Event) (got : Except CacheError (Option Guard)) : Prop :=
  (∀ g, got = .ok (some g) → g.key = key) ∧
    Stands log got.toOption.join.toList ⟨[], [got.map (Option.map (·.token))], [], [], false⟩

theorem acquire_meets (own : v.key? settings = some key) (now : Instant) (store : Store) :
    (Service.acquire key (v.timeout settings)).Meets (contract settings v) (Tried key)
      [⟨now, store, .operate (.get key), .ok none⟩] := by
  unfold Service.acquire
  refine Meets.bind (q := fun log reply => ∃ now' store', log =
      [⟨now', store', .operate (.acquire key (v.timeout settings)), reply⟩,
        ⟨now, store, .operate (.get key), .ok none⟩])
    (.act ⟨own, rfl, now, store, rfl⟩ fun now' store' reply _ => ⟨now', store', rfl⟩) ?_
  rintro _ reply ⟨now', store', rfl⟩
  split
  · exact .pure ⟨nofun, rfl, rfl, rfl⟩
  · exact .pure ⟨nofun, rfl, rfl, rfl⟩
  · next token =>
    refine Meets.bind (q := fun log _ => Stands log [⟨key, token⟩] ⟨[], [.ok (some token)], [], [], false⟩)
      (.act rfl fun _ _ _ _ => ⟨rfl, rfl, rfl⟩) fun log _ stands => .pure ⟨?_, stands⟩
    rintro g ⟨⟩
    rfl

/-- **The way of a request** is decided by its look-up, its attempt to lock and its policy. -/
theorem resolve_meets (own : v.key? settings = some key) :
    (Service.resolve settings key (v.policy settings) (v.timeout settings)).Meets (contract settings v)
      (Decided settings v key) [] := by
  unfold Service.resolve
  refine (get_meets rfl own).bind ?_
  rintro _ _ ⟨now, store, reply, rfl, rfl⟩
  have stands : Stands [⟨now, store, .operate (.get key), reply⟩] []
      ⟨booked settings [], [], [], [], failed (looked reply)⟩ :=
    .unbooked settings ⟨rfl, rfl, congrArg (Facts.mk [] [] [] []) (lookupFails_get reply)⟩
  split
  · next reason eq => exact degrade_meets .unseen (by rwa [eq] at stands)
  · next value eq =>
    rw [eq] at stands
    obtain ⟨entry, rfl, unpacked⟩ := looked_eq_some eq
    refine (count_meets stands _).bind fun log₁ _ counted => .pure ⟨?_, counted.1⟩
    exact Found.mono counted.2.subset ⟨entry, ⟨now, store, List.mem_cons_self⟩, unpacked⟩
  · next eq =>
    obtain rfl := looked_eq_none eq
    refine (acquire_meets own now store).bind fun log₁ got tried => ?_
    obtain ⟨same, came⟩ := tried
    split
    · exact degrade_meets (.unlocked _) (came.unbooked settings)
    · next g =>
      obtain rfl := same g rfl
      refine (count_meets (came.unbooked settings) _).bind fun log₂ _ counted => .pure ?_
      exact ⟨_, _, _, .locked g own, counted.1, nofun⟩
    · exact contend_meets own (came.unbooked settings)

/-! ## Computing a response -/

theorem handler_meets {facts : KeyRequest} {request : Request} {c : Computation}
    (captured : Middleware.capture v.rule.key v.template v.params v.request = some (facts, request))
    (undertaken : Undertaken settings v c log) (stands : Stands log held ⟨os, a, [], [], l⟩) :
    (v.handler request).Meets (contract settings v)
      (fun log' r => ∃ rs, Answers v r rs ∧ Stands log' held ⟨os, a, rs, [], l⟩) log := by
  unfold Visit.handler
  split
  · next endpoint eq =>
    refine .act ⟨stands.settled, eq, stands.runs, ⟨facts, captured⟩, c, undertaken⟩ fun now store r _ => ?_
    exact ⟨[r], .inl rfl, stands.handle now store endpoint request r⟩
  · next refused => exact .pure ⟨[], .inr ⟨rfl, refused, rfl⟩, stands⟩

/-- One write, and its answer. -/
theorem set_meets {r : Response} {bytes : ByteArray} (own : v.key? settings = some key)
    (storing : Storing settings v log) (fit : Storable settings r bytes)
    (stands : Stands log held ⟨os, a, [r], [], l⟩) :
    (Service.set settings key (Middleware.stored r bytes) (v.rule.ttl.getD settings.defaultTtl) v.rule.compress
      v.rule.tags).Meets (contract settings v)
      (fun log' result => ∃ e, Stands log' held ⟨os, a, [r], [(key, e, result)], l⟩) log := by
  unfold Service.set
  refine (clock_meets stands.settled).bind ?_
  rintro _ read ⟨now, store, rfl⟩
  have stands := stands.clock now store read
  refine .act ⟨own, stands.writes, storing, r, bytes, read, ⟨now, store, log, rfl⟩, stands.runs, fit, rfl⟩
    fun now store result _ => ?_
  exact ⟨_, stands.set now store key (entryOf settings v r bytes read) result⟩

/-- **Storing a success** writes it once, if it is to be stored, and hands it on whatever comes of that. -/
theorem store_meets {r : Response} (own : v.key? settings = some key) (storing : Storing settings v log)
    (success : r.isSuccess = true) (stands : Stands log held ⟨booked settings os, a, [r], [], l⟩) :
    (Middleware.store settings v.rule key r).Meets (contract settings v) (fun log' result => ∃ ws,
      Wrote settings r ws ∧ Stands log' held
        ⟨booked settings ((if ws.any (failed ·.2.2) then [.backendError] else []) ++ os), a, [r], ws, l⟩ ∧
      result.2 = !ws.all (failed ·.2.2) ∧ Handed r result.1) log := by
  have storable : ∀ bytes, Storable settings r bytes ↔
      r.body.buffer settings.maxResponseBytes = .complete bytes := fun bytes => by
    rw [Storable, Body.buffer_eq_complete_iff]
    exact and_iff_right success
  have unfit : (∀ bytes, r.body.buffer settings.maxResponseBytes ≠ .complete bytes) →
      ∀ bytes, ¬ Storable settings r bytes := fun other bytes fit => other bytes ((storable bytes).1 fit)
  have handed : ∀ {out : Response}, (r.body.failure = none → out.HandsOn r) → Handed r out := fun whole =>
    ⟨fun failure => absurd (success.symm.trans failure) nofun, whole⟩
  unfold Middleware.store
  split
  · next body long =>
    obtain ⟨rfl, -⟩ := Body.buffer_eq_tooLong_iff.1 long
    exact .pure ⟨[], .nothing (unfit (by rw [long]; exact nofun)), stands, rfl, handed fun _ => .refl r⟩
  · next reason broken =>
    obtain ⟨fails, -⟩ := Body.buffer_eq_failed_iff.1 broken
    refine .pure ⟨[], .nothing (unfit (by rw [broken]; exact nofun)), stands, rfl, handed fun whole => ?_⟩
    cases fails.symm.trans whole
  · next bytes complete =>
    have fit := (storable bytes).2 complete
    have kept := handed fun _ => Response.HandsOn.collected (Body.collect_of_buffer complete)
    refine (set_meets own storing fit stands).bind fun log₁ result wrote => ?_
    obtain ⟨e, stands⟩ := wrote
    dsimp only
    split
    · exact .pure ⟨[(key, e, .ok ())], .once key e _ fit, stands, rfl, kept⟩
    · next reason =>
      refine (count_meets stands _).bind fun log₂ _ counted => .pure ?_
      exact ⟨[(key, e, .error reason)], .once key e _ fit, counted.1, rfl, kept⟩

/-- The lock is given back, and the rest of the log stands. -/
theorem release_meets {c : Computation} (stands : Stands log c.guard.toList f) (ran : v.endpoint = none ∨ runs log ≠ [])
    (complete : Complete settings v log) :
    c.release.Meets (contract settings v) (fun log' _ => Stands log' [] f) log := by
  unfold Computation.release
  split
  · next g eq =>
    have held : heldBy log = [g] := by rw [stands.held, eq]; rfl
    have given : (heldBy log).erase g = [] := by rw [held, List.erase_cons_head]
    unfold Guard.release
    refine Meets.bind (q := fun log' _ => due log' = some (.operate (.release g.key g.token)) ∧ heldBy log' = [] ∧
      facts log' = f) (.act ⟨stands.settled, held, ran, complete⟩ fun _ _ _ _ => ⟨rfl, given, ?_⟩) ?_
    · exact (facts_silent (.inl rfl) rfl rfl rfl rfl).trans stands.facts
    rintro log₁ - ⟨next, free, same⟩
    refine Meets.bind (q := fun log' _ => Stands log' [] f) (.act next fun _ _ _ _ => ⟨rfl, free, ?_⟩)
      fun _ _ stands => .pure stands
    exact (facts_silent (.inl rfl) rfl rfl rfl rfl).trans same
  · next eq =>
    rw [eq] at stands
    exact .pure stands

theorem carryOut_meets {facts : KeyRequest} {request : Request} {c : Computation}
    (captured : Middleware.capture v.rule.key v.template v.params v.request = some (facts, request))
    (own : v.key? settings = some key) (undertaken : Undertaken settings v c log) :
    (Middleware.carryOut settings v.rule key v.handler request c).Meets (contract settings v) (Finished settings v)
      log := by
  have read : readable v = true := by rw [readable, captured]; rfl
  unfold Middleware.carryOut
  obtain ⟨os, a, l, way, stands, -⟩ := id undertaken
  refine (handler_meets captured undertaken stands).bind fun log₁ r answered => ?_
  obtain ⟨rs, answers, stands⟩ := answered
  -- the lock is given back and the mark is put on, stored or not
  have finish : ∀ {log₂ : List Event} {out : Response} {m : Mark} {ws : List (String × Entry × Except CacheError Unit)},
      (if c.store then Wrote settings r ws else ws = []) → Stands log₂ c.guard.toList
        ⟨booked settings ((if ws.any (failed ·.2.2) then [.backendError] else []) ++ os), a, rs, ws, l⟩ →
      Handed r out → m = markOf c r ws →
      (do c.release; pure (Middleware.mark m out) : Program Response).Meets (contract settings v) (Finished settings v)
        log₂ := by
    rintro log₂ out m ws written stands handed rfl
    have ran : v.endpoint = none ∨ runs log₂ ≠ [] := by
      rw [stands.runs]
      rcases answers with rfl | ⟨-, none, -⟩
      · exact .inr (List.cons_ne_nil _ _)
      · exact .inl none
    refine (release_meets stands ran (complete_of_answered way answers written stands)).bind fun log₃ _ stands => ?_
    exact .pure (.answered read way answers written stands handed rfl)
  dsimp only
  split
  · next stores =>
    obtain ⟨store, success⟩ := (Bool.and_eq_true _ _).mp stores
    obtain rfl : rs = [r] := by
      rcases answers with once | ⟨-, -, rfl⟩
      · exact once
      · cases success
    have storing : Storing settings v log₁ := (way.storing stands.attempts).1 store
    refine (store_meets own storing success stands).bind fun log₂ result stored => ?_
    obtain ⟨ws, written, stands, done, handed⟩ := stored
    refine finish (by rwa [if_pos store]) stands handed ?_
    rw [markOf, stores, done]
    cases ws.all (failed ·.2.2) <;> rfl
  · next other =>
    have written : if c.store then Wrote settings r []
        else ([] : List (String × Entry × Except CacheError Unit)) = [] := by
      split
      · next store =>
        exact .nothing fun bytes fit => other ((Bool.and_eq_true _ _).mpr ⟨store, fit.1⟩)
      · rfl
    refine finish written stands ⟨fun _ => rfl, fun _ => .refl r⟩ ?_
    rw [markOf, eq_false_of_ne_true other]
    rfl

/-! ## Serving -/

/-- **Serving a request** keeps to the contract, whatever the request is answered. -/
theorem serve_meets (settings : Settings) (v : Visit) :
    (v.serve settings).Meets (contract settings v) (Finished settings v) [] := by
  unfold Visit.serve Middleware.serve
  split
  · next unread => exact .pure (.unread (by rw [readable, unread]; rfl) rfl rfl)
  · next facts request captured =>
    have read : readable v = true := by rw [readable, captured]; rfl
    split
    · next cannot =>
      have keyless : v.key? settings = none := by
        rw [Visit.key?, captured]
        exact if_neg (by simpa using cannot)
      refine (count_meets (.unbooked settings .start) _).bind fun log₁ _ counted => ?_
      have way : Way settings v .bypassing [.bypass] [] false := .keyless keyless
      have undertaken : Undertaken settings v .bypassing log₁ :=
        ⟨_, _, _, way, counted.1, fun overdue => absurd overdue (by decide)⟩
      refine (handler_meets captured undertaken counted.1).bind fun log₂ r answered => .pure ?_
      obtain ⟨rs, answers, stands⟩ := answered
      have unwritten : ([] : List (String × Entry × Except CacheError Unit)) = [] := rfl
      exact .answered read way answers unwritten stands ⟨fun _ => rfl, fun _ => .refl r⟩ rfl
    · next can =>
      have own : v.key? settings = some (v.rule.key.build settings.keyStart facts) := by
        rw [Visit.key?, captured]
        exact if_pos (by simpa using can)
      refine (resolve_meets own).bind fun log₁ resolution decided => ?_
      split
      · exact .pure (.replayed read own decided.1 .hit decided.2 rfl)
      · exact .pure (.replayed read own decided.1 .wait decided.2 rfl)
      · next seconds =>
        obtain ⟨rfl, policy, stands⟩ := decided
        exact .pure (.refused read policy stands rfl)
      · exact carryOut_meets captured own decided

/-! ## Requests of a pool -/

/-- A request that is done is finished, however it was answered. -/
theorem finished_of_plays {out : Response} (plays : (v.serve settings).Plays log (.done out)) :
    Finished settings v log out :=
  ((serve_meets settings v).plays (fun _ => trivial) plays).2

/-- Nothing has to be known of the store. -/
theorem upholds (S : Surroundings) (v : Visit) : Upholds S (fun _ => True) (contract S.settings v) :=
  ⟨fun _ _ => trivial, fun _ _ _ => trivial, fun _ _ _ => trivial, fun _ _ => trivial⟩

/-- **Every request** of a pool keeps to the contract of its visit. -/
theorem conforms {S : Surroundings} {store : Store} {p : Pool} (reach : Reach S store p) :
    ∀ t ∈ p.tasks, t.Conforms S (contract S.settings t.visit) (Finished S.settings) :=
  (reach.conforms (upholds S) (fun v _ => serve_meets S.settings v) trivial).2

end ResponseCache.Procedure
