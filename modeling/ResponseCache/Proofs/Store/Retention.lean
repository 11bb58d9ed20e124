import ResponseCache.Proofs.Store.Account
import ResponseCache.Proofs.Store.Standing

/-!
# What a store remembers

Under a key a store remembers the entry written last, until its deadline, unless a call has removed it or a write under
another key has evicted it. `Kept` says so of the history alone, and look-ups answer by it (`Accounts.mem_after` is the
step, `History.kept_of_holds` and `History.holds_of_kept` the run). What is evicted is the entry that was neither
written nor found for the longest time: the account of a store is in order of the latest touches (`History.order`).
All that together is `entries_follow_history`.
-/

namespace ResponseCache.Store

/-! ## What the history says -/

/-- A call after which nothing is left of an entry, unless it wrote the entry itself. -/
def Call.Removes (key : String) (e : Entry) : Call → Prop
  | .set key' _ | .delete key' => key' = key
  | .invalidateTag tag => tag ∈ e.tags
  | .clear => True
  | .get _ | .acquire _ _ | .release _ _ | .isLocked _ | .cleanup | .resetStats => False

/-- A write under another key after which the entry of a key is gone. -/
def Evicts (s : Store) (now : Instant) (call : Call) (victim : String) : Prop :=
  (∃ key e, call = .set key e ∧ key ≠ victim) ∧ (∃ e, s.Holds victim e) ∧ ∀ e, ¬ (s.call now call).2.Holds victim e

/-- What a call adds to the counters of a store. -/
structure Counts (s : Store) (now : Instant) (call : Call) : Prop where
  hit : ∀ key e, call = .get key → (s.get now key).1 = some e →
    (s.call now call).2.stats.hits.toNat = s.stats.hits.toNat + 1 ∧
      (s.call now call).2.stats.misses.toNat = s.stats.misses.toNat
  miss : ∀ key, call = .get key → (s.get now key).1 = none →
    (s.call now call).2.stats.hits.toNat = s.stats.hits.toNat ∧
      (s.call now call).2.stats.misses.toNat = s.stats.misses.toNat + 1
  silent : (∀ key, call ≠ .get key) → call ≠ .resetStats →
    (s.call now call).2.stats.hits.toNat = s.stats.hits.toNat ∧
      (s.call now call).2.stats.misses.toNat = s.stats.misses.toNat
  evicted : ∀ victim, Evicts s now call victim →
    (s.call now call).2.stats.evictions.toNat = s.stats.evictions.toNat + 1
  spared : (∀ victim, ¬ Evicts s now call victim) → call ≠ .resetStats →
    (s.call now call).2.stats.evictions.toNat = s.stats.evictions.toNat

/-- By the history an entry was written last under a key, and since then neither removed nor evicted. -/
inductive Kept (capacity : Nat) (key : String) (e : Entry) : List Event → Prop
  | written {d : Event} {h : List Event} : d.call = .set key e → Kept capacity key e (d :: h)
  | since {d : Event} {h : List Event} {s : Store} : Kept capacity key e h → History capacity h s →
      ¬ d.call.Removes key e → ¬ Evicts s d.now d.call key → Kept capacity key e (d :: h)

/-- The event wrote a key or found it. -/
def Event.Touches (key : String) : Event → Prop
  | ⟨_, .set key' _, _⟩ => key' = key
  | ⟨_, .get key', some _⟩ => key' = key
  | _ => False

/-- By the history a key was touched after the latest touch of another one. -/
inductive TouchedSince (key other : String) : List Event → Prop
  | here {d : Event} {h : List Event} : d.Touches other → TouchedSince key other (d :: h)
  | before {d : Event} {h : List Event} : ¬ d.Touches key → TouchedSince key other h → TouchedSince key other (d :: h)

theorem Event.Touches.unique {key key' : String} {d : Event} (a : d.Touches key) (b : d.Touches key') : key = key' := by
  unfold Touches at a b
  split at a
  · exact a.symm.trans b
  · exact a.symm.trans b
  · exact a.elim

/-- Of two keys only one is the older one. -/
theorem TouchedSince.eq_of_swap {key other : String} {h : List Event} (a : TouchedSince key other h)
    (b : TouchedSince other key h) : key = other := by
  induction a with
  | here touches =>
    cases b with
    | here touches' => exact touches'.unique touches
    | before no => exact absurd touches no
  | before no _ ih =>
    cases b with
    | here touches => exact absurd touches no
    | before _ b => exact ih b

/-- A history leads to one store. -/
theorem History.unique {capacity : Nat} {h : List Event} {s s' : Store} (a : History capacity h s)
    (b : History capacity h s') : s = s' := by
  induction a generalizing s' with
  | create create =>
    cases b with
    | create create' => exact Except.ok.inj (create.symm.trans create')
  | @event h s now call _ _ ih =>
    generalize whole : (⟨now, call, (s.call now call).1⟩ :: h : List Event) = h' at b
    cases b with
    | create => cases whole
    | event call' b _ =>
      injection whole with same rest
      injection same with same same'
      subst rest same same'
      rw [ih b]

/-! ## One call -/

section Calls

variable {s : Store} {r : Ledger} {now : Instant} {call : Call} {key : String} {e : Entry}

/-- What is there after a call was written by it, or was there before and is not removed. -/
theorem call_stands (covered : Covered [] s) (here : (s.call now call).2.Holds key e) :
    call = .set key e ∨ (s.Holds key e ∧ ¬ call.Removes key e) := by
  -- all calls but one are operations
  have operation : ∀ op : Operation, (s.perform now op).2.Holds key e → op = .set key e ∨
      (s.Holds key e ∧ ¬ op.Removes key e) := fun op => perform_stands covered
  cases call with
  | set key' e' => exact (operation (.set key' e') here).imp_left fun eq => by cases eq; rfl
  | get key' => exact .inr ((operation (.get key') here).resolve_left nofun)
  | delete key' => exact .inr ((operation (.delete key') here).resolve_left nofun)
  | acquire key' timeout => exact .inr ((operation (.acquire key' timeout) here).resolve_left nofun)
  | release key' token => exact .inr ((operation (.release key' token) here).resolve_left nofun)
  | invalidateTag tag => exact .inr ((operation (.invalidateTag tag) here).resolve_left nofun)
  | clear => exact .inr ((operation .clear here).resolve_left nofun)
  | cleanup => exact .inr ((operation .purge here).resolve_left nofun)
  | resetStats => exact .inr ((operation .resetStats here).resolve_left nofun)
  | isLocked key' => exact .inr ⟨here, nofun⟩

namespace Ledger

theorem mem_touch {p : String × Entry} : p ∈ (r.touch key e).entries ↔ (p ∈ r.entries ∧ p.1 ≠ key) ∨ p = (key, e) := by
  simp [Lru.Recency.touch, Lru.Recency.erase]

/-- A touched key goes to the end. -/
theorem entries_touch {r' : Ledger} (key : String) (e : Entry) (sub : r'.entries.Sublist r.entries) :
    ∃ rest, rest.Sublist r.entries ∧ (∀ p ∈ rest, p.1 ≠ key) ∧ (r'.touch key e).entries = rest ++ [(key, e)] :=
  ⟨_, List.filter_sublist.trans sub, fun _ mem => bne_iff_ne.1 (List.mem_filter.1 mem).2, rfl⟩

theorem entries_insert (r : Ledger) (key : String) (e : Entry) :
    ∃ rest, rest.Sublist r.entries ∧ (∀ p ∈ rest, p.1 ≠ key) ∧ (r.insert key e).2.entries = rest ++ [(key, e)] := by
  unfold Lru.Recency.insert
  split
  · exact entries_touch key e (List.drop_sublist 1 _)
  · exact entries_touch key e (.refl _)

theorem expire_cases (r : Ledger) (now : Instant) (key : String) :
    r.expire now key = r ∨ r.expire now key = r.erase key := by
  unfold expire
  split
  · split
    · exact .inr rfl
    · exact .inl rfl
  · exact .inl rfl

theorem sublist_expire (r : Ledger) (now : Instant) (key : String) : (r.expire now key).entries.Sublist r.entries := by
  rcases r.expire_cases now key with eq | eq
  · rw [eq]
  · rw [eq]
    exact List.filter_sublist

/-- Taking out what is expired counts nothing. -/
theorem counts_expire (r : Ledger) (now : Instant) (key : String) : (r.expire now key).hits = r.hits ∧
    (r.expire now key).misses = r.misses ∧ (r.expire now key).evictions = r.evictions := by
  rcases r.expire_cases now key with eq | eq <;> rw [eq] <;> exact ⟨rfl, rfl, rfl⟩

/-- A look-up is a hit or a miss. -/
theorem looks_get (r : Ledger) (now : Instant) (key : String) :
    (r.after now (.get key)).evictions = r.evictions ∧
    (((r.expire now key).get key).1.isSome ∧ (r.after now (.get key)).hits = r.hits + 1 ∧
        (r.after now (.get key)).misses = r.misses ∧ (r.after now (.get key)).touches = r.touches + 1 ∨
      ((r.expire now key).get key).1 = none ∧ (r.after now (.get key)).hits = r.hits ∧
        (r.after now (.get key)).misses = r.misses + 1 ∧ (r.after now (.get key)).touches = r.touches) := by
  obtain ⟨hits, misses, evictions⟩ := r.counts_expire now key
  have touches := r.touches_expire now key
  simp only [after, Lru.Recency.get]
  split
  · exact ⟨evictions, .inl ⟨rfl, congrArg (· + 1) hits, misses, congrArg (· + 1) touches⟩⟩
  · exact ⟨evictions, .inr ⟨rfl, hits, congrArg (· + 1) misses, touches⟩⟩

/-- A call touches an entry or misses it, or neither. -/
theorem touches_add_misses_after_le (r : Ledger) (now : Instant) (call : Call) :
    (r.after now call).touches + (r.after now call).misses ≤ r.touches + r.misses + 1 := by
  cases call with
  | set key e =>
    have touches := Lru.Recency.touches_insert r key e
    have misses := (r.looks_insert key e).2
    rw [after, touches, misses]
    omega
  | get key =>
    rcases (r.looks_get now key).2 with ⟨-, -, misses, touches⟩ | ⟨-, -, misses, touches⟩ <;> rw [misses, touches] <;>
      omega
  | resetStats => exact Nat.le_succ_of_le (Nat.add_le_add_left (Nat.zero_le _) _)
  | delete | invalidateTag | clear | cleanup | acquire | release | isLocked => exact Nat.le_succ _

end Ledger

namespace Accounts

variable (accounts : Accounts [] s r)
include accounts

theorem holds_iff : s.Holds key e ↔ (key, e) ∈ r.entries := by
  rw [Holds, accounts.ties.peek?_eq, accounts.find?_eq_some_iff]

theorem covered : Covered [] s := fun key e here tag tagged _ =>
  (accounts.indexes.mem_iff tag key).2 ⟨List.not_mem_nil, e, accounts.holds_iff.1 here, tagged⟩

/-- A live entry outlives every call that neither writes nor removes it. -/
theorem mem_after (writes : ∀ key' e', call ≠ .set key' e') (stays : ¬ call.Removes key e) (live : now < e.deadline)
    (mem : (key, e) ∈ r.entries) : (key, e) ∈ (r.after now call).entries := by
  have fresh : e.isExpired now = false := decide_eq_false (Nat.not_le_of_lt live)
  cases call with
  | set key' e' => exact absurd rfl (writes key' e')
  | get key' =>
    have kept : (key, e) ∈ (r.expire now key').entries := by
      unfold Ledger.expire
      split
      · next e' found =>
        split
        · next expired =>
          refine List.mem_filter.2 ⟨mem, bne_iff_ne.2 ?_⟩
          rintro rfl
          cases accounts.value_unique mem (accounts.find?_eq_some_iff.1 found)
          cases fresh.symm.trans expired
        · exact mem
      · exact mem
    show (key, e) ∈ ((r.expire now key').get key').2.entries
    unfold Lru.Recency.get
    split
    · next e' found =>
      refine Ledger.mem_touch.2 ?_
      by_cases same : key = key'
      · subst same
        have expired := accounts.expire now key
        exact Or.inr (by rw [expired.value_unique kept (expired.find?_eq_some_iff.1 found)])
      · exact Or.inl ⟨kept, same⟩
    · exact kept
  | delete key' => exact List.mem_filter.2 ⟨mem, bne_iff_ne.2 fun same => stays same.symm⟩
  | invalidateTag tag => exact List.mem_filter.2 ⟨mem, decide_eq_true stays⟩
  | clear => exact absurd trivial stays
  | cleanup => exact List.mem_filter.2 ⟨mem, by rw [fresh]; rfl⟩
  | acquire | release | isLocked | resetStats => exact mem

/-- A call that touches a key puts it at the end of the account, and any other leaves the rest in order. -/
theorem touched_or_not (room : r.touches + 1 < 2 ^ 64) (now : Instant) (call : Call) :
    (∃ key e rest, Event.Touches key ⟨now, call, (s.call now call).1⟩ ∧ rest.Sublist r.entries ∧
      (∀ p ∈ rest, p.1 ≠ key) ∧ (r.after now call).entries = rest ++ [(key, e)]) ∨
    ((∀ key, ¬ Event.Touches key ⟨now, call, (s.call now call).1⟩) ∧ (r.after now call).entries.Sublist r.entries) := by
  cases call with
  | set key e =>
    obtain ⟨rest, sub, others, eq⟩ := r.entries_insert key e
    exact .inl ⟨key, e, rest, rfl, sub, others, eq⟩
  | get key =>
    obtain ⟨same, -⟩ := accounts.get now key room
    have expired := Ledger.sublist_expire r now key
    simp only [Store.call, same, Ledger.after, Lru.Recency.get]
    split
    · next e found =>
      obtain ⟨rest, sub, others, eq⟩ := Ledger.entries_touch key e expired
      exact .inl ⟨key, e, rest, rfl, sub, others, eq⟩
    · exact .inr ⟨fun _ => not_false, expired⟩
  | delete key => exact .inr ⟨fun _ => not_false, List.filter_sublist⟩
  | invalidateTag tag => exact .inr ⟨fun _ => not_false, List.filter_sublist⟩
  | clear => exact .inr ⟨fun _ => not_false, List.nil_sublist _⟩
  | cleanup => exact .inr ⟨fun _ => not_false, List.filter_sublist⟩
  | acquire | release | isLocked | resetStats => exact .inr ⟨fun _ => not_false, .refl _⟩

/-- The ways of a write: nothing is evicted, or just the head of the account is. -/
theorem write_cases (room : r.touches + 1 < 2 ^ 64) (now : Instant) (key : String) (e : Entry) :
    ((∀ victim, ¬ Evicts s now (.set key e) victim) ∧ ((∃ old, s.Holds key old) ∨ s.size < r.capacity) ∧
      (r.insert key e).2.evictions = r.evictions) ∨
    ∃ p rest, r.entries = p :: rest ∧ (∀ victim, Evicts s now (.set key e) victim ↔ victim = p.1) ∧
      (∀ old, ¬ s.Holds key old) ∧ s.size = r.capacity ∧ (r.insert key e).2.evictions = r.evictions + 1 := by
  have after : ∀ {key' : String} {e' : Entry}, (s.call now (.set key e)).2.Holds key' e' ↔
      (key', e') ∈ (r.insert key e).2.entries := (accounts.set key e room).holds_iff
  have size : s.size = r.entries.length := accounts.ties.length
  -- a touch drives out nothing
  have spared : (r.insert key e).2 = r.touch key e → ∀ victim, ¬ Evicts s now (.set key e) victim := by
    rintro eq victim ⟨⟨_, _, ⟨⟩, other⟩, ⟨old, here⟩, gone⟩
    exact gone old (after.2 (eq ▸ Ledger.mem_touch.2 (.inl ⟨accounts.holds_iff.1 here, other.symm⟩)))
  rcases r.insert_cases accounts.sound.capacity_pos key e with ⟨present, eq⟩ | ⟨-, below, eq⟩ |
    ⟨⟨head, first⟩, rest, absent, full, list, eq⟩
  · obtain ⟨old, found⟩ := Option.isSome_iff_exists.1 present
    have here := accounts.holds_iff.2 (accounts.find?_eq_some_iff.1 found)
    exact .inl ⟨spared (congrArg Prod.snd eq), .inl ⟨old, here⟩, by rw [eq]; rfl⟩
  · exact .inl ⟨spared (congrArg Prod.snd eq), .inr (size ▸ below), by rw [eq]; rfl⟩
  · have away : ∀ old, ¬ s.Holds key old := fun old here => accounts.absent absent old (accounts.holds_iff.1 here)
    have driven : Evicts s now (.set key e) head := by
      have there : s.Holds head first := accounts.holds_iff.2 (list ▸ List.mem_cons_self)
      refine ⟨⟨key, e, rfl, ?_⟩, ⟨first, there⟩, fun old here => ?_⟩
      · rintro rfl
        exact away _ there
      · have here := after.1 here
        rw [eq, accounts.mem_evict_touch absent list, List.mem_filter] at here
        exact absurd rfl (bne_iff_ne.1 here.2)
    refine .inr ⟨_, rest, list, fun victim => ⟨?_, fun eq => eq ▸ driven⟩, away, ?_, ?_⟩
    · rintro ⟨⟨_, _, ⟨⟩, other⟩, ⟨old, here⟩, gone⟩
      by_contra ne
      refine gone old (after.2 ?_)
      rw [eq, accounts.mem_evict_touch absent list, List.mem_filter, List.mem_append]
      exact ⟨.inl (accounts.holds_iff.1 here), bne_iff_ne.2 ne⟩
    · exact Nat.le_antisymm (size ▸ accounts.sound.length_le) (size ▸ full)
    · rw [eq]
      show r.evictions + (r.entries.take 1).length = _
      rw [list]
      rfl

theorem counters (room : r.touches + r.misses < 2 ^ 64) : s.stats.hits.toNat = r.hits ∧
    s.stats.misses.toNat = r.misses ∧ s.stats.evictions.toNat = r.evictions := by
  have hits := accounts.sound.hits_le
  have evictions := accounts.sound.evictions_le
  refine ⟨?_, ?_, ?_⟩
  · rw [← Words.toNat_ofNat (show r.hits < 2 ^ 64 by omega), ← accounts.ties.hits]
    rfl
  · rw [← Words.toNat_ofNat (show r.misses < 2 ^ 64 by omega), ← accounts.ties.misses]
    rfl
  · rw [← Words.toNat_ofNat (show r.evictions < 2 ^ 64 by omega), ← accounts.ties.evictions]
    rfl

theorem counts (room : r.touches + r.misses + 1 < 2 ^ 64) (now : Instant) (call : Call) : Counts s now call := by
  have touches : r.touches + 1 < 2 ^ 64 := Nat.lt_of_le_of_lt (by omega) room
  obtain ⟨hits, misses, evictions⟩ := accounts.counters (Nat.lt_of_succ_lt room)
  obtain ⟨hits', misses', evictions'⟩ := (accounts.call now call touches).counters
    (Nat.lt_of_le_of_lt (r.touches_add_misses_after_le now call) room)
  have found : ∀ key, (s.get now key).1 = ((r.expire now key).get key).1 := fun key => (accounts.get now key touches).1
  constructor
  case hit =>
    rintro key e rfl here
    rw [found] at here
    rw [hits, hits', misses, misses']
    rcases (r.looks_get now key).2 with ⟨-, hit, same, -⟩ | ⟨none, -⟩
    · exact ⟨hit, same⟩
    · cases here.symm.trans none
  case miss =>
    rintro key rfl none
    rw [found] at none
    rw [hits, hits', misses, misses']
    rcases (r.looks_get now key).2 with ⟨some, -⟩ | ⟨-, same, miss, -⟩
    · rw [none] at some
      cases some
    · exact ⟨same, miss⟩
  case silent =>
    intro looks resets
    rw [hits, hits', misses, misses']
    cases call with
    | set key e => exact r.looks_insert key e
    | get key => exact absurd rfl (looks key)
    | resetStats => exact absurd rfl resets
    | delete | invalidateTag | clear | cleanup | acquire | release | isLocked => exact ⟨rfl, rfl⟩
  case evicted =>
    intro victim evicts
    have ⟨⟨key, e, wrote, _⟩, _⟩ := evicts
    subst wrote
    rw [evictions, evictions']
    rcases accounts.write_cases touches now key e with ⟨none, -⟩ | ⟨_, _, _, _, _, _, one⟩
    · exact absurd evicts (none victim)
    · exact one
  case spared =>
    intro none resets
    rw [evictions, evictions']
    cases call with
    | set key e =>
      rcases accounts.write_cases touches now key e with ⟨-, -, same⟩ | ⟨p, _, _, only, _⟩
      · exact same
      · exact absurd ((only p.1).2 rfl) (none p.1)
    | get key => exact (r.looks_get now key).1
    | resetStats => exact absurd rfl resets
    | delete | invalidateTag | clear | cleanup | acquire | release | isLocked => rfl

/-- **An expired entry** that a look-up comes upon is gone afterwards, from under all tags too. -/
theorem get_expired (room : r.touches + 1 < 2 ^ 64) (here : s.Holds key e) (past : e.deadline ≤ now) :
    (s.get now key).1 = none ∧ (∀ e', ¬ (s.get now key).2.Holds key e') ∧
      ∀ tag, key ∉ (s.get now key).2.tagged.getD tag ∅ := by
  obtain ⟨same, left⟩ := accounts.get now key room
  have found : r.find? key = some e := accounts.find?_eq_some_iff.2 (accounts.holds_iff.1 here)
  have erased : r.expire now key = r.erase key := by
    rw [Ledger.expire, found]
    exact if_pos (decide_eq_true past)
  have absent : (r.erase key).find? key = none :=
    List.lookup_eq_none_iff.2 fun p mem => bne_iff_ne.2 (bne_iff_ne.1 (List.mem_filter.1 mem).2).symm
  have none : ∀ e', ¬ (s.get now key).2.Holds key e' := fun e' here' => by
    have mem := left.holds_iff.1 here'
    rw [erased, Lru.Recency.get, absent] at mem
    exact absurd rfl (bne_iff_ne.1 (List.mem_filter.1 mem).2)
  refine ⟨?_, none, fun tag under => ?_⟩
  · rw [same, erased, Lru.Recency.get, absent]
  · obtain ⟨-, e', mem', -⟩ := (left.indexes.mem_iff tag key).1 under
    exact none e' (left.holds_iff.2 mem')

end Accounts

end Calls

/-! ## Whole histories -/

section Histories

variable {capacity : Nat} {h : List Event} {s : Store} {key : String} {e : Entry}

theorem looks_ledger_le (capacity : Nat) : ∀ h, (ledger capacity h).touches + (ledger capacity h).misses ≤ h.length
  | [] => Nat.le_refl _
  | e :: h => Nat.le_trans (Ledger.touches_add_misses_after_le _ e.now e.call)
    (Nat.succ_le_succ (looks_ledger_le capacity h))

/-- There is room for one more touch. -/
theorem touches_ledger_lt (capacity : Nat) (few : h.length + 1 < 2 ^ 64) : (ledger capacity h).touches + 1 < 2 ^ 64 :=
  Nat.lt_of_le_of_lt (Nat.succ_le_succ (touches_ledger_le capacity h)) few

/-- What a store holds was kept. -/
theorem History.kept_of_holds (history : History capacity h s) (few : h.length < 2 ^ 64) (here : s.Holds key e) :
    Kept capacity key e h := by
  induction history with
  | create create => exact absurd here (not_holds_create create)
  | @event h s now call history _ ih =>
    have few := Nat.lt_of_succ_lt few
    rcases call_stands (history.accounts few).covered here with rfl | ⟨before, stays⟩
    · exact .written rfl
    · exact .since (ih few before) history stays fun evicted => evicted.2.2 e here

/-- What was kept is there until its deadline. -/
theorem History.holds_of_kept (history : History capacity h s) (few : h.length < 2 ^ 64) (kept : Kept capacity key e h)
    (live : latest h < e.deadline) : s.Holds key e := by
  induction history with
  | create => cases kept
  | @event h s now call history le ih =>
    generalize whole : (⟨now, call, (s.call now call).1⟩ :: h : List Event) = h' at kept
    have room := few
    have few := Nat.lt_of_succ_lt few
    have accounts := history.accounts few
    cases kept with
    | written wrote =>
      injection whole with same
      subst same
      cases wrote
      exact holds_set_self
    | since kept history' stays evicted =>
      injection whole with same rest
      subst same rest
      cases history.unique history'
      have before := ih few kept (Nat.lt_of_le_of_lt le live)
      by_cases writes : ∃ key' e', call = .set key' e'
      · -- a write that does not evict the entry leaves one under its key, and this was there before
        obtain ⟨key', e', rfl⟩ := writes
        have other : key' ≠ key := stays
        by_contra gone
        refine evicted ⟨⟨key', e', rfl, other⟩, ⟨e, before⟩, fun old here => ?_⟩
        rcases call_stands accounts.covered here with eq | ⟨stood, -⟩
        · cases eq
          exact other rfl
        · exact gone (stood.unique before ▸ here)
      · have writes : ∀ key' e', call ≠ .set key' e' := fun key' e' eq => writes ⟨key', e', eq⟩
        have after := accounts.call now call (touches_ledger_lt capacity room)
        exact after.holds_iff.2 (accounts.mem_after writes stays live (accounts.holds_iff.1 before))

/-- **The account is in order of the latest touches**, the older ones first. -/
theorem History.order (history : History capacity h s) (few : h.length < 2 ^ 64) :
    (ledger capacity h).entries.Pairwise fun p q => TouchedSince p.1 q.1 h := by
  induction history with
  | create => exact .nil
  | @event h s now call history _ ih =>
    have ordered := ih (Nat.lt_of_succ_lt few)
    have accounts := history.accounts (Nat.lt_of_succ_lt few)
    have next := accounts.touched_or_not (touches_ledger_lt capacity few) now call
    rw [ledger]
    dsimp only
    rcases next with ⟨key, e, rest, touches, sub, others, eq⟩ | ⟨none, sub⟩
    · rw [eq]
      refine List.pairwise_append.2 ⟨?_, List.pairwise_singleton _ _, fun p _ q mem => ?_⟩
      · refine (ordered.sublist sub).imp_of_mem fun {p q} mem _ older => .before (fun touches' => ?_) older
        exact others p mem (touches'.unique touches)
      · rw [List.mem_singleton.1 mem]
        exact .here touches
    · exact (ordered.sublist sub).imp fun older => .before (none _) older

/-- **What is evicted** makes room for a new key in a full store, and of all stored keys it was not touched for the
longest time. -/
theorem History.evicts_iff (history : History capacity h s) (few : h.length + 1 < 2 ^ 64) {now : Instant} {call : Call}
    {victim : String} : Evicts s now call victim ↔ ∃ key e, call = .set key e ∧ (∀ old, ¬ s.Holds key old) ∧
      s.size = capacity ∧ (∃ old, s.Holds victim old) ∧
      ∀ other old, s.Holds other old → other ≠ victim → TouchedSince victim other h := by
  have accounts := history.accounts (Nat.lt_of_succ_lt few)
  have cases := accounts.write_cases (touches_ledger_lt capacity few) now
  have order := history.order (Nat.lt_of_succ_lt few)
  rw [capacity_ledger] at cases
  constructor
  · intro evicts
    have ⟨⟨key, e, wrote, _⟩, stored, _⟩ := evicts
    subst wrote
    rcases cases key e with ⟨none, -⟩ | ⟨p, rest, list, only, away, full, -⟩
    · exact absurd evicts (none victim)
    · obtain rfl := (only victim).1 evicts
      refine ⟨key, e, rfl, away, full, stored, fun other old here ne => ?_⟩
      rw [list] at order
      rcases List.mem_cons.1 (list ▸ accounts.holds_iff.1 here) with rfl | mem
      · exact absurd rfl ne
      · exact (List.pairwise_cons.1 order).1 _ mem
  · rintro ⟨key, e, rfl, away, full, ⟨old, stored⟩, oldest⟩
    rcases cases key e with ⟨-, ⟨old, here⟩ | below, -⟩ | ⟨p, rest, list, only, -⟩
    · exact absurd here (away old)
    · exact absurd full (Nat.ne_of_lt below)
    · refine (only victim).2 ?_
      by_contra ne
      -- the head is older than the victim, and the other way round
      rw [list] at order
      have older := oldest p.1 p.2 (accounts.holds_iff.2 (list ▸ List.mem_cons_self)) (Ne.symm ne)
      rcases List.mem_cons.1 (list ▸ accounts.holds_iff.1 stored) with rfl | mem
      · exact ne rfl
      · exact ne (older.eq_of_swap ((List.pairwise_cons.1 order).1 _ mem))

/-- **What a look-up finds** is the entry written last under the key, if its deadline is ahead and it was kept. -/
theorem History.get_iff (history : History capacity h s) (few : h.length < 2 ^ 64) {now : Instant}
    (le : latest h ≤ now) : (s.get now key).1 = some e ↔ Kept capacity key e h ∧ now < e.deadline := by
  constructor
  · intro found
    exact ⟨history.kept_of_holds few (get_found found), get_live found⟩
  · rintro ⟨kept, live⟩
    exact get_of_live (history.holds_of_kept few kept (Nat.lt_of_le_of_lt le live)) live

end Histories

/-- **A store is a bounded map with deadlines**, after every history of fewer calls than a word counts, the next one
included.

A look-up finds the entry that was written last under the key, until its deadline, unless it was removed or evicted
since. What is evicted makes room for a new key in a full store, and was not touched for the longest time of all that is
stored. A look-up is counted as one hit or one miss, nothing but an eviction as an eviction; and an expired entry that a
look-up comes upon is removed, from under its tags too. -/
theorem entries_follow_history {capacity : Nat} {h : List Event} {s : Store} (history : History capacity h s)
    (few : h.length + 1 < 2 ^ 64) {now : Instant} (le : latest h ≤ now) :
    (∀ key e, (s.get now key).1 = some e ↔ Kept capacity key e h ∧ now < e.deadline) ∧
    (∀ call victim, Evicts s now call victim ↔ ∃ key e, call = .set key e ∧ (∀ old, ¬ s.Holds key old) ∧
      s.size = capacity ∧ (∃ old, s.Holds victim old) ∧
      ∀ other old, s.Holds other old → other ≠ victim → TouchedSince victim other h) ∧
    (∀ call, Counts s now call) ∧
    ∀ key e, s.Holds key e → e.deadline ≤ now → (s.get now key).1 = none ∧
      (∀ e', ¬ (s.get now key).2.Holds key e') ∧
      ∀ tag, key ∉ (s.get now key).2.tagged.getD tag ∅ := by
  have accounts := history.accounts (Nat.lt_of_succ_lt few)
  have room := Nat.lt_of_le_of_lt (Nat.succ_le_succ (looks_ledger_le capacity h)) few
  exact ⟨fun _ _ => history.get_iff (Nat.lt_of_succ_lt few) le, fun _ _ => history.evicts_iff few,
    accounts.counts room now, fun _ _ => accounts.get_expired (touches_ledger_lt capacity few)⟩

/-- Room for two: the expired entry that nothing touched since it was written makes room for the third, and the one that
was found again stays. -/
theorem entries_follow_history_two : ∃ (h : List Event) (s : Store), History 2 h s ∧
    Kept 2 "a" ⟨default, 10, ["t"], false⟩ h ∧ (s.get 6 "b").1 = none ∧ "b" ∉ (s.get 6 "b").2.tagged.getD "t" ∅ ∧
    Evicts s 6 (.set "c" ⟨default, 20, [], false⟩) "b" ∧
    (s.call 6 (.set "c" ⟨default, 20, [], false⟩)).2.stats.evictions.toNat = s.stats.evictions.toNat + 1 := by
  let s : Store := ⟨⟨∅, ∅, 0, 2, {}, by decide⟩, ∅, ∅, 0⟩
  have history := (show History 2 [] s from .create rfl)
    |>.event (.set "a" ⟨default, 10, ["t"], false⟩) (show 0 ≤ 1 by decide)
    |>.event (.set "b" ⟨default, 5, ["t"], false⟩) (show 1 ≤ 2 by decide)
    |>.event (.get "a") (show 2 ≤ 3 by decide)
  obtain ⟨get_iff, evicts_iff, counts, expired⟩ := entries_follow_history history (by decide) (show 3 ≤ 6 by decide)
  have holds_iff : ∀ {key e}, Holds _ key e ↔
      (key, e) ∈ [("b", ⟨default, 5, ["t"], false⟩), ("a", ⟨default, 10, ["t"], false⟩)] :=
    (history.accounts (by decide)).holds_iff
  have stored : ∀ {key e}, Holds _ key e → key = "b" ∨ key = "a" := fun here =>
    (List.mem_pair.1 (holds_iff.1 here)).imp (congrArg Prod.fst) (congrArg Prod.fst)
  have b := holds_iff.2 (.head _)
  have evicts := (evicts_iff (.set "c" ⟨default, 20, [], false⟩) "b").2
    ⟨"c", _, rfl, fun _ here => absurd (stored here) (by decide), rfl, ⟨_, b⟩,
      fun _ _ here other => by cases (stored here).resolve_left other; exact .here rfl⟩
  have kept := (get_iff _ _).1 (get_of_live (holds_iff.2 (.tail _ (.head _))) (by decide))
  obtain ⟨none, -, untagged⟩ := expired _ _ b (by decide)
  exact ⟨_, _, history, kept.1, none, untagged "t", evicts, (counts _).evicted _ evicts⟩

end ResponseCache.Store
