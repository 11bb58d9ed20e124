import ResponseCache.Proofs.Middleware.Leaks

/-!
# A lock is given back wherever its owner stops

An owner of locks has custody of them (`custody`) if it does what is due: it takes the guard on when it is given a
lock, and calls for the release when it has given the guard up. Of every lock that it was given it has called for the
release, or it has the lock still (`released_or_has`). So an owner that stops anywhere has called for the release or
leaves the guard behind (`released_or_held`), and whoever gives it up has that lock released; but not if it stops
between giving the guard up and the answer to its call.

In a pool, what a request leaves behind is owed until it is released, so every lock that a request was given is released
or owed once the request is over (`Chronicle.served_or_owed`).
-/

namespace ResponseCache

open Program (Event Heard Kept Meets heldBy)
open Procedure

/-! ## Giving and releasing -/

/-- The event gave a lock. -/
def Program.Event.Gives (g : Guard) (e : Event) : Prop :=
  ∃ now store timeout, e = ⟨now, store, .operate (.acquire g.key timeout), .ok (some g.token)⟩

/-- The release of a lock was called for after the lock was given, and answered so. -/
def Program.Released (g : Guard) (reply : Except CacheError Unit) (log : List Event) : Prop :=
  ∃ now store given, given.Gives g ∧ [⟨now, store, .operate (.release g.key g.token), reply⟩, given].Sublist log

theorem Program.Released.mono {g : Guard} {reply : Except CacheError Unit} {log log' : List Event}
    (sub : log.Sublist log') : Released g reply log → Released g reply log'
  | ⟨now, store, given, gives, both⟩ => ⟨now, store, given, gives, both.trans sub⟩

/-- A program may be given up where it waits for an answer, or has come to its end. -/
def Program.MayStop {α : Type} : Program α → Prop
  | .done _ => True
  | .perform action _ => action.suspends = true

namespace Procedure

variable {log : List Event} {g : Guard} {key : String}

/-- What is due is done, whatever else is done. -/
def custody : Program.Contract := ⟨fun log action => ∀ next, due log = some next → action = next, fun _ => True⟩

/-- **Of a lock that it was given**, an owner has called for the release, or has it still. -/
theorem released_or_has : ∀ {log : List Event}, Kept custody log → (∃ e ∈ log, e.Gives g) →
    (∃ reply, Program.Released g reply log) ∨ Has g log
  | ⟨now, store, action, reply⟩ :: log, ⟨prompt, _, kept⟩, ⟨given, mem, gives⟩ => by
    rcases List.mem_cons.1 mem with rfl | before
    · obtain ⟨_, _, _, eq⟩ := gives
      cases eq
      exact .inr (.given rfl)
    · rcases released_or_has kept ⟨given, before, gives⟩ with ⟨reply, released⟩ | has
      · exact .inl ⟨reply, released.mono (List.sublist_cons_self _ _)⟩
      · by_cases releases : action = .operate (.release g.key g.token)
        · subst releases
          exact .inl ⟨reply, now, store, given, gives, (List.singleton_sublist.2 before).cons_cons _⟩
        · exact .inr (has.cons prompt releases)

/-- **Where an owner may stop**, it has called for the release of a lock that it was given, or holds the guard, unless
its call waits for the answer. -/
theorem released_or_held {α : Type} {program rest : Program α}
    (meets : program.Meets custody (fun log _ => due log = none) []) (plays : program.Plays log rest)
    (stops : rest.MayStop) (given : ∃ e ∈ log, e.Gives g)
    (answered : due log ≠ some (.operate (.release g.key g.token))) :
    (∃ reply, Program.Released g reply log) ∨ g ∈ heldBy log := by
  obtain ⟨kept, ends⟩ := meets.plays (fun _ => trivial) plays
  rcases released_or_has kept given with released | has
  · exact .inl released
  · cases has with
    | held mem => exact .inr mem
    | returning due => exact absurd due answered
    | given due =>
      -- the guard is taken on at once, and the owner does not stop before
      cases rest with
      | done a => exact nomatch due.symm.trans ends
      | perform action resume =>
        cases ends.1 _ due
        cases stops

/-! ## Owners -/

theorem prompt_of_settled (settled : due log = none) (action : Action) : custody.demands log action :=
  fun _ due => nomatch settled.symm.trans due

theorem acquire_custody (settled : due log = none) (timeout : Millis) :
    (Service.acquire key timeout).Meets custody (fun log' _ => due log' = none) log := by
  unfold Service.acquire
  refine Meets.bind (q := fun log' reply => ∃ now store,
    log' = ⟨now, store, .operate (.acquire key timeout), reply⟩ :: log)
    (.act (prompt_of_settled settled _) fun now store reply _ => ⟨now, store, rfl⟩) ?_
  rintro log₁ reply ⟨now, store, rfl⟩
  split
  · exact .pure rfl
  · exact .pure rfl
  · exact Meets.bind (q := fun log' _ => due log' = none)
      (.act (fun next due => Option.some.inj due) fun _ _ _ _ => rfl) fun _ _ settled => .pure settled

theorem release_custody (settled : due log = none) (g : Guard) :
    g.release.Meets custody (fun log' _ => due log' = none) log := by
  unfold Guard.release
  refine Meets.bind (q := fun log' _ => due log' = some (.operate (.release g.key g.token)))
    (.act (prompt_of_settled settled _) fun _ _ _ _ => rfl) fun log₁ _ next => ?_
  exact Meets.bind (q := fun log' _ => due log' = none)
    (.act (fun _ due => Option.some.inj (next.symm.trans due)) fun _ _ _ _ => rfl) fun _ _ done => .pure done

/-- An owner that locks a key, works for a while and gives the lock back. -/
def errand (key : String) (timeout work : Millis) : Program Unit := do
  match ← Service.acquire key timeout with
  | .error _ => return ()
  | .ok none => return ()
  | .ok (some g) =>
    Program.sleep work
    g.release

theorem errand_custody (key : String) (timeout work : Millis) :
    (errand key timeout work).Meets custody (fun log _ => due log = none) [] := by
  unfold errand
  refine (acquire_custody rfl timeout).bind fun log₁ result settled => ?_
  split
  · exact .pure settled
  · exact .pure settled
  · refine Meets.bind (q := fun log _ => due log = none) (.act (prompt_of_settled settled _) fun _ _ _ _ => rfl)
      fun log₂ _ settled => release_custody settled _

/-- **A request** has custody of its lock. -/
theorem serve_custody (settings : Settings) (v : Visit) :
    (v.serve settings).Meets custody (fun log _ => due log = none) [] := by
  have meets : (v.serve settings).Meets custody (Finished settings v) [] :=
    (serve_meets settings v).weaken (fun _ _ demanded _ => demanded.eq_due) fun _ _ => trivial
  exact meets.mono fun _ _ finished => finished.settled

theorem kept_custody {settings : Settings} {v : Visit} : ∀ {log : List Event}, Kept (contract settings v) log →
    Kept custody log
  | [], _ => trivial
  | _ :: _, ⟨demanded, _, kept⟩ => ⟨fun _ => demanded.eq_due, trivial, kept_custody kept⟩

end Procedure

/-! ## Requests that are over -/

section Pools

variable {S : Surroundings} {store : Store} {h : List Deed} {p : Pool} {g : Guard}

/-- The release of a lock was called for after the lock was given, and was carried out unless the store may refuse
it. -/
def Served (S : Surroundings) (g : Guard) (h : List Deed) : Prop :=
  ∃ reply, (reply = .ok () ∨ S.mayFail (.release g.key g.token)) ∧ Program.Released g reply (h.map (·.event))

theorem Served.step (d : Option Deed) : Served S g h → Served S g (d.toList ++ h)
  | ⟨reply, allowed, released⟩ => ⟨reply, allowed, released.mono ((List.sublist_append_right ..).map _)⟩

theorem Answered.release_allowed {now since : Instant} {store store' : Store} {tally tally' : Tally} {key : String}
    {token : Token} {reply : Except CacheError Unit}
    (answered : Answered S now since store tally (.operate (.release key token)) reply store' tally') :
    reply = .ok () ∨ S.mayFail (.release key token) := by
  cases answered with
  | operate => exact .inl rfl
  | fault _ may => exact .inr may

/-- The events of one request, among those of all. -/
theorem logOf_sublist (i : Nat) (h : List Deed) : (logOf i h).Sublist (h.map (·.event)) := by
  induction h with
  | nil => exact .slnil
  | cons d h ih =>
    by_cases own : d.place = some i
    · obtain ⟨place, e⟩ := d
      subst own
      rw [logOf_cons_self]
      exact ih.cons_cons _
    · rw [logOf_cons_of_ne own]
      exact ih.cons _

/-- **What a request that was given up had** is owed until it is released, but for a lock that it had begun to
release. -/
theorem Chronicle.left_behind (chronicle : Chronicle S store h p) :
    ∀ t ∈ p.tasks, t.next = none → ∀ g, Has g t.log → t.BrokenOff g ∨ Served S g h ∨ g ∈ p.owed := by
  induction chronicle with
  | start => exact fun t mem => nomatch mem
  | @step h p q d chronicle does ih =>
    have conforms := Procedure.conforms chronicle.reach
    -- who was given up before, stays so
    have before : ∀ t ∈ p.tasks, t.next = none → ∀ g, Has g t.log →
        t.BrokenOff g ∨ Served S g (d.toList ++ h) ∨ g ∈ p.owed := fun t mem gone g has =>
      (ih t mem gone g has).imp_right (Or.imp_left (Served.step d))
    cases does with
    | pass | other => exact before
    | arrive =>
      intro t mem gone
      rcases List.mem_append.1 mem with mem | mem
      · exact before t mem gone
      · cases List.mem_singleton.1 mem
        cases gone
    | turn here =>
      intro t mem gone
      rcases List.mem_or_eq_of_mem_set mem with mem | rfl
      · exact before t mem gone
      · cases gone
    | @drop i t action resume here next suspends drops =>
      have mem := List.mem_of_getElem? here
      obtain ⟨demanded, -⟩ := (conforms t mem).meets _ next
      have held : t.held = heldBy t.log :=
        (Reach.orderly chronicle.reach t mem).held.resolve_left fun gone => gone _ _ next
      intro u mem' gone g has
      rcases List.mem_or_eq_of_mem_set mem' with mem' | rfl
      · exact (before u mem' gone g has).imp_right (Or.imp_right (List.mem_append_left _))
      · cases has with
        | given due =>
          -- a request that was just given its lock is not given up
          cases demanded.eq_due due
          cases suspends
        | held mem => exact .inr (.inr (List.mem_append_right _ (held ▸ mem)))
        | returning due => exact .inl ⟨rfl, due⟩
    | retire here next =>
      intro t mem gone g has
      rcases List.mem_or_eq_of_mem_set mem with mem | rfl
      · exact (before t mem gone g has).imp_right (Or.imp_right (List.mem_append_left _))
      · exact nomatch next.symm.trans gone
    | @settle g reply store' tally' owes answered =>
      intro t mem gone g' has
      rcases before t mem gone g' has with broken | served | owed
      · exact .inl broken
      · exact .inr (.inl served)
      · by_cases same : g' = g
        · subst same
          obtain ⟨i, here⟩ := List.mem_iff_getElem?.1 mem
          obtain ⟨since, s, acquired⟩ := has.acquired (conforms t mem).kept
          have given := List.mem_map_of_mem (f := Deed.event) (chronicle.deed here acquired)
          exact .inr (.inl ⟨reply, answered.release_allowed, p.now, p.store, _, ⟨since, s, _, rfl⟩,
            (List.singleton_sublist.2 given).cons_cons _⟩)
        · exact .inr (.inr ((List.mem_erase_of_ne same).2 owed))

/-- **Every lock that a request was given** is released or owed when the request is over, unless it was broken off. -/
theorem Chronicle.served_or_owed (chronicle : Chronicle S store h p) {t : Task} (mem : t ∈ p.tasks) (gone : t.Over)
    (given : ∃ e ∈ t.log, e.Gives g) (whole : ¬ t.BrokenOff g) : Served S g h ∨ g ∈ p.owed := by
  have conforms := Procedure.conforms chronicle.reach t mem
  obtain ⟨i, here⟩ := List.mem_iff_getElem?.1 mem
  rcases released_or_has (kept_custody conforms.kept) given with ⟨reply, released⟩ | has
  · have part : t.log.Sublist (h.map (·.event)) := chronicle.log here ▸ logOf_sublist i h
    obtain ⟨now, s, _, -, both⟩ := id released
    obtain ⟨_, _, _, _, answered⟩ := chronicle.answered (chronicle.deed here (both.subset List.mem_cons_self))
    exact .inl ⟨reply, answered.release_allowed, released.mono part⟩
  · cases next : t.next with
    | none => exact (chronicle.left_behind t mem next g has).resolve_left whole
    | some program =>
      cases program with
      | perform action resume => exact absurd next (gone _ _)
      | done r => exact absurd has (Finished.not_has (conforms.meets _ next))

/-- Two requests that were given one and the same lock are one request. -/
theorem Chronicle.giver {capacity : Nat} (create : Store.create capacity = .ok store)
    (chronicle : Chronicle S store h p) (few : (Store.tokens (calls h)).length < 2 ^ 64) {t u : Task}
    (mem : t ∈ p.tasks) (mem' : u ∈ p.tasks) (given : ∃ e ∈ t.log, e.Gives g) (given' : ∃ e ∈ u.log, e.Gives g) :
    t = u := by
  obtain ⟨i, here⟩ := List.mem_iff_getElem?.1 mem
  obtain ⟨j, there⟩ := List.mem_iff_getElem?.1 mem'
  obtain ⟨_, own, now, s, timeout, rfl⟩ := given
  obtain ⟨_, own', now', s', timeout', rfl⟩ := given'
  have gives : Deed.Gives g.key ⟨g.token, now, timeout⟩ ⟨some i, _⟩ := ⟨s, rfl⟩
  have gives' : Deed.Gives g.key ⟨g.token, now', timeout'⟩ ⟨some j, _⟩ := ⟨s', rfl⟩
  have same := chronicle.sole create few (chronicle.deed here own) (chronicle.deed there own') gives gives' rfl
  injection same with place
  exact Option.some.inj (here.symm.trans (Option.some.inj place ▸ there))

/-- **The lock of a request that is over** is owed, as long as it stands. -/
theorem Chronicle.owed_of_lock (sound : ∀ key token, ¬ S.mayFail (.release key token))
    (others : ∀ op, S.others op → ∀ key timeout, op ≠ .acquire key timeout) {capacity : Nat}
    (create : Store.create capacity = .ok store) (chronicle : Chronicle S store h p)
    (few : (Store.tokens (calls h)).length < 2 ^ 64) {t : Task} (mem : t ∈ p.tasks) (gone : t.Over)
    (given : ∃ e ∈ t.log, e.Gives g) (whole : ¬ t.BrokenOff g) {l : Lock} (here : p.store.locks[g.key]? = some l)
    (token : l.token = g.token) : g ∈ p.owed := by
  have conforms := Procedure.conforms chronicle.reach
  -- whoever has the lock is the request that was given it
  have own : ∀ u ∈ p.tasks, Has g u.log → t = u := by
    intro u mem' has
    obtain ⟨since, s, acquired⟩ := has.acquired (conforms u mem').kept
    exact chronicle.giver create few mem mem' given ⟨_, acquired, since, s, _, rfl⟩
  have accounted := (Reach.tidy sound others create chronicle.reach).locks g.key l here
  rw [token] at accounted
  cases accounted with
  | had has =>
    obtain ⟨u, mem', going, has⟩ := has
    obtain rfl := own u mem' has
    obtain ⟨program, next⟩ := Option.ne_none_iff_exists'.1 going
    cases program with
    | perform action resume => exact absurd next (gone _ _)
    | done r => exact absurd has (Finished.not_has ((conforms t mem).meets _ next))
  | owed owes => exact owes
  | lost broken =>
    obtain ⟨u, mem', broken⟩ := broken
    obtain rfl := own u mem' (.returning broken.2)
    exact absurd broken whole

end Pools

/-! ## A request alone -/

namespace Alone

/-- A request to a route that names the key. -/
def visit : Visit :=
  ⟨{ key := { override := some (.literal "k") } }, "/", [], some 0, ⟨"GET", { path := "/" }, .empty, .empty⟩⟩

/-- Only that request comes, and it may be given up; its handler finds nothing, and the store refuses nothing. -/
def surroundings : Surroundings where
  settings := { enableStats := false }
  comes := (· = visit)
  answers := fun _ _ r => r = .bare 404
  others := fun _ => False
  mayFail := fun _ => False
  mayDrop := fun _ => True

/-- A store without entries. -/
def store (misses : UInt64) (locks : Std.TreeMap String Lock) (token : Token) : Store :=
  ⟨⟨∅, ∅, 0, 1, { misses := misses }, by decide⟩, ∅, locks, token⟩

def locks : Std.TreeMap String Lock := (∅ : Std.TreeMap String Lock).insert "k" ⟨1, 0, 5000⟩

theorem missed : Answered surroundings 0 0 (store 0 ∅ 0) {} (.operate (.get "k")) (.ok none) (store 1 ∅ 0) {} :=
  .operate _

theorem locked : Answered surroundings 0 0 (store 1 ∅ 0) {} (.operate (.acquire "k" 5000)) (.ok (some 1))
    (store 1 locks 1) {} :=
  .operate (.acquire "k" 5000)

end Alone

/-- **Locks that were given return**, wherever their owners are given up, unless that is between giving a guard up and
the answer to the call for its release.

An owner of any kind that stops, such as a request (`serve_custody`), has called for the release of every lock that it
was given, or leaves the guard behind. Of a request that is over, every lock that it was given is released, unless the
store refuses that, or owed. And where the store refuses no release and nobody else takes locks, a lock that a request
was given and that stands when the request is over is owed, while fewer than 2 ^ 64 locks have been taken. -/
theorem given_locks_return (g : Guard) :
    (∀ (α : Type) (program rest : Program α) (log : List Event),
      program.Meets custody (fun log _ => due log = none) [] → program.Plays log rest → rest.MayStop →
        (∃ e ∈ log, e.Gives g) → due log ≠ some (.operate (.release g.key g.token)) →
          (∃ reply, Program.Released g reply log) ∨ g ∈ heldBy log) ∧
    ∀ (S : Surroundings) (store : Store) (h : List Deed) (p : Pool), Chronicle S store h p →
      ∀ t ∈ p.tasks, t.Over → (∃ e ∈ t.log, e.Gives g) → ¬ t.BrokenOff g →
        (Served S g h ∨ g ∈ p.owed) ∧
        ((∀ key token, ¬ S.mayFail (.release key token)) →
          (∀ op, S.others op → ∀ key timeout, op ≠ .acquire key timeout) →
          (∃ capacity, Store.create capacity = .ok store) → (Store.tokens (calls h)).length < 2 ^ 64 →
          ∀ l, p.store.locks[g.key]? = some l → l.token = g.token → g ∈ p.owed) := by
  constructor
  · intro α program rest log meets plays stops given answered
    exact released_or_held meets plays stops given answered
  · intro S store h p chronicle t mem gone given whole
    refine ⟨chronicle.served_or_owed mem gone given whole, fun sound others ⟨capacity, create⟩ few l here token => ?_⟩
    exact chronicle.owed_of_lock sound others create few mem gone given whole here token

/-- An owner that is given up while it sleeps leaves its guard behind; the lock of a request that is given up while its
handler runs is owed, and released when that is settled. -/
theorem given_locks_return_given_up : ∃ (program rest : Program Unit) (log : List Event) (S : Surroundings)
    (store : Store) (h h' : List Deed) (p p' : Pool) (g : Guard),
    program.Plays log rest ∧ rest.MayStop ∧ (∃ e ∈ log, e.Gives g) ∧
      ((∃ reply, Program.Released g reply log) ∨ g ∈ heldBy log) ∧
      Chronicle S store h p ∧ p.store.lockCount = 1 ∧ g ∈ p.owed ∧
      Chronicle S store h' p' ∧ p'.owed = [] ∧ Served S g h' := by
  let g : Guard := ⟨"k", 1⟩
  let program := errand "k" 5000 100
  have asked : program.Plays [] (.perform (.operate (.acquire "k" 5000)) _) := .start
  have given : program.Plays _ (.perform (.hold g) _) :=
    asked.answer 0 (Alone.store 0 ∅ 0) (Except.ok (some 1) : Except CacheError (Option Token))
  have took : program.Plays _ (.perform (.sleep 100) _) := given.answer 0 (Alone.store 0 Alone.locks 1) ()
  -- a request that is given up while its handler runs
  have dropped := (show Chronicle Alone.surroundings (Alone.store 0 ∅ 0) [] _ from .start).step (.arrive _ rfl)
    |>.step (.turn (i := 0) rfl rfl Alone.missed) |>.step (.turn (i := 0) rfl rfl Alone.locked)
    |>.step (.turn (i := 0) rfl rfl (.hold _)) |>.step (.drop (i := 0) rfl rfl rfl trivial)
  have settled := dropped.step (.settle (g := g) List.mem_cons_self (.operate _))
  have stands : (Alone.store 1 Alone.locks 1).locks["k"]? = some ⟨1, 0, 5000⟩ := rfl
  have second {α : Type} {a b : α} {rest : List α} : b ∈ a :: b :: rest := List.mem_cons_of_mem _ List.mem_cons_self
  obtain ⟨owners, requests⟩ := given_locks_return g
  have owned := owners Unit program _ _ (errand_custody "k" 5000 100) took rfl
    ⟨_, second, 0, Alone.store 0 ∅ 0, 5000, rfl⟩ nofun
  have before := requests Alone.surroundings _ _ _ dropped _ List.mem_cons_self (fun _ _ => nofun)
    ⟨_, second, 0, Alone.store 1 ∅ 0, 5000, rfl⟩ fun broken => nomatch broken.2
  have after := requests Alone.surroundings _ _ _ settled _ List.mem_cons_self (fun _ _ => nofun)
    ⟨_, second, 0, Alone.store 1 ∅ 0, 5000, rfl⟩ fun broken => nomatch broken.2
  have owes : g ∈ _ := before.2 (fun _ _ => id) (fun _ no => no.elim) ⟨1, rfl⟩ (by decide) ⟨1, 0, 5000⟩ stands rfl
  exact ⟨program, _, _, Alone.surroundings, _, _, _, _, _, g, took, rfl, ⟨_, second, 0, Alone.store 0 ∅ 0, 5000, rfl⟩,
    owned, dropped, rfl, owes, settled, rfl, after.1.resolve_right nofun⟩

/-- The lock of a request that is given up while it waits for the answer to the call for the release stands, and nobody
will release it. -/
theorem broken_off_stands : ∃ (S : Surroundings) (store : Store) (h : List Deed) (p : Pool) (t : Task) (g : Guard),
    Chronicle S store h p ∧ (∀ op, ¬ S.mayFail op) ∧ t ∈ p.tasks ∧ t.next = none ∧ (∃ e ∈ t.log, e.Gives g) ∧
      p.store.isLocked p.now g.key = true ∧ p.owed = [] ∧ ¬ Served S g h := by
  have handled : Alone.surroundings.answers 0 Alone.visit.request (.bare 404) := rfl
  have dropped := (show Chronicle Alone.surroundings (Alone.store 0 ∅ 0) [] _ from .start).step (.arrive _ rfl)
    |>.step (.turn (i := 0) rfl rfl Alone.missed) |>.step (.turn (i := 0) rfl rfl Alone.locked)
    |>.step (.turn (i := 0) rfl rfl (.hold _)) |>.step (.turn (i := 0) rfl rfl (.handle handled))
    |>.step (.turn (i := 0) rfl rfl (.disarm _)) |>.step (.drop (i := 0) rfl rfl rfl trivial)
  have fourth {α : Type} {a b c d : α} {rest : List α} : d ∈ a :: b :: c :: d :: rest :=
    List.mem_cons_of_mem _ (List.mem_cons_of_mem _ (List.mem_cons_of_mem _ List.mem_cons_self))
  refine ⟨Alone.surroundings, _, _, _, _, ⟨"k", 1⟩, dropped, fun _ => id, List.mem_cons_self, rfl,
    ⟨_, fourth, 0, Alone.store 1 ∅ 0, 5000, rfl⟩, rfl, rfl, ?_⟩
  rintro ⟨reply, -, now, s, given, -, both⟩
  have mem := both.subset List.mem_cons_self
  repeat
    rcases List.mem_cons.1 mem with eq | mem
    · cases eq
  cases mem

end ResponseCache
