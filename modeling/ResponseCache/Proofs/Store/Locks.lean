import Mathlib.Order.Basic
import Mathlib.Tactic.Set
import ResponseCache.Proofs.Store.History
import ResponseCache.Proofs.Words

/-!
# The lock of a key follows from the history

A lock is taken by an acquisition, and freed by the release with its token or by the passing of its timeout, by
nothing else: what an abandoned lock leaves behind, stale releases, releases of other keys and sweeps do not matter.
`Traced` ties the table of locks to the history that led to it, each event keeps the tie (`Traced.event`), and so the
history alone decides whether a lock is free (`locks_follow_history`).
-/

namespace ResponseCache.Store

open Std (TreeMap)

/-- A lock is abandoned from the instant its timeout is over. -/
theorem isAbandoned_iff {l : Lock} {now : Instant} (le : l.since ≤ now) :
    l.isAbandoned now = true ↔ l.since + l.timeout ≤ now := by
  rw [Lock.isAbandoned, decide_eq_true_iff]
  exact Nat.le_sub_iff_add_le' le

/-! ## What the history says -/

/-- The lock that an event takes, with its key. -/
def Event.acquired? : Event → Option (String × Lock)
  | ⟨now, .acquire key timeout, some token⟩ => some (key, ⟨token, now, timeout⟩)
  | _ => none

/-- The token of a release that frees a lock. -/
def Event.freed? : Event → Option Token
  | ⟨_, .release _ token, true⟩ => some token
  | _ => none

/-- The tokens of all acquisitions, the latest first. -/
def tokens (h : List Event) : List Token := h.filterMap fun e => e.acquired?.map (·.2.token)

/-- The tokens of all releases that freed a lock. -/
def freed (h : List Event) : List Token := h.filterMap Event.freed?

/-- The latest acquisition of the lock of a key in a history, and what happened since. -/
inductive LastAcquired (key : String) (l : Lock) : List Event → List Event → Prop
  | here {e : Event} {h : List Event} : e.acquired? = some (key, l) → LastAcquired key l (e :: h) []
  | before {e : Event} {h since : List Event} : (∀ l', e.acquired? ≠ some (key, l')) → LastAcquired key l h since →
      LastAcquired key l (e :: h) (e :: since)

/-- By the history the lock of a key is free at an instant: its latest acquisition, if there is one, was released by its
token since, or has outlived its timeout. -/
def Free (h : List Event) (key : String) (now : Instant) : Prop :=
  ∀ l since, LastAcquired key l h since → (∃ e ∈ since, e.call = .release key l.token) ∨ l.since + l.timeout ≤ now

/-- By the history a lock was taken last for a key, and has not been released by its token. -/
def Held (h : List Event) (key : String) (l : Lock) : Prop :=
  ∃ since, LastAcquired key l h since ∧ ∀ e ∈ since, e.call ≠ .release key l.token

theorem LastAcquired.unique {key : String} {l l' : Lock} {h since since' : List Event}
    (a : LastAcquired key l h since) (b : LastAcquired key l' h since') : l = l' ∧ since = since' := by
  induction a generalizing since' with
  | here acquired =>
    cases b with
    | here acquired' =>
      rw [acquired] at acquired'
      cases acquired'
      exact ⟨rfl, rfl⟩
    | before no => exact absurd acquired (no l)
  | before no _ ih =>
    cases b with
    | here acquired => exact absurd acquired (no l')
    | before _ b =>
      obtain ⟨rfl, rfl⟩ := ih b
      exact ⟨rfl, rfl⟩

theorem LastAcquired.token_mem {key : String} {l : Lock} {h since : List Event} (a : LastAcquired key l h since) :
    l.token ∈ tokens h := by
  induction a with
  | here acquired => exact List.mem_filterMap.2 ⟨_, List.mem_cons_self, by rw [acquired]; rfl⟩
  | before _ _ ih =>
    obtain ⟨e, mem, he⟩ := List.mem_filterMap.1 ih
    exact List.mem_filterMap.2 ⟨e, List.mem_cons_of_mem _ mem, he⟩

theorem Held.cons {key : String} {l : Lock} {h : List Event} {e : Event} (held : Held h key l)
    (no : ∀ l', e.acquired? ≠ some (key, l')) (call : e.call ≠ .release key l.token) : Held (e :: h) key l := by
  obtain ⟨since, a, unreleased⟩ := held
  refine ⟨e :: since, .before no a, fun e' mem => ?_⟩
  rcases List.mem_cons.1 mem with rfl | mem
  · exact call
  · exact unreleased e' mem

/-- A lock that is held is free when its timeout is over. -/
theorem Held.free_iff {key : String} {l : Lock} {h : List Event} (held : Held h key l) (now : Instant) :
    Free h key now ↔ l.since + l.timeout ≤ now := by
  obtain ⟨since, a, unreleased⟩ := held
  constructor
  · intro free
    rcases free l since a with ⟨e, mem, release⟩ | due
    · exact absurd release (unreleased e mem)
    · exact due
  · intro due l' since' a'
    obtain ⟨rfl, -⟩ := a.unique a'
    exact Or.inr due

theorem Free.mono {h : List Event} {key : String} {now later : Instant} (free : Free h key now) (le : now ≤ later) :
    Free h key later := fun l since a => (free l since a).imp_right fun due => Nat.le_trans due le

theorem Free.cons {h : List Event} {key : String} {now : Instant} {e : Event} (free : Free h key now)
    (no : ∀ l, e.acquired? ≠ some (key, l)) : Free (e :: h) key now := by
  intro l since a
  cases a with
  | here acquired => exact absurd acquired (no l)
  | before _ a =>
    rcases free l _ a with ⟨e', mem, release⟩ | due
    · exact Or.inl ⟨e', List.mem_cons_of_mem _ mem, release⟩
    · exact Or.inr due

/-! ## The tie -/

/-- The locks of a store are those that its history leaves, apart from abandoned ones that may be gone. -/
structure Traced (h : List Event) (s : Store) : Prop where
  count : s.lastToken = .ofNat (tokens h).length
  increasing : (tokens h).Pairwise (· > ·)
  given : ∀ token ∈ tokens h, token ≤ s.lastToken
  held : ∀ (key : String) (l : Lock), s.locks[key]? = some l → Held h key l
  since_le : ∀ (key : String) (l : Lock), s.locks[key]? = some l → l.since ≤ latest h
  gone : ∀ key : String, s.locks[key]? = none → Free h key (latest h)
  distinct : ∀ (key key' : String) (l l' : Lock), s.locks[key]? = some l → s.locks[key']? = some l' →
    l.token = l'.token → key = key'
  freed_given : ∀ token ∈ freed h, token ≤ s.lastToken
  freed_gone : ∀ (key : String) (l : Lock), s.locks[key]? = some l → l.token ∉ freed h
  freed_once : (freed h).Nodup

namespace Traced

variable {h : List Event} {s t : Store} (traced : Traced h s)
include traced

theorem token_le {key : String} {l : Lock} (here : s.locks[key]? = some l) : l.token ≤ s.lastToken := by
  obtain ⟨since, a, -⟩ := traced.held key l here
  exact traced.given _ a.token_mem

/-- **An event that takes no lock and frees none** by a release; it may sweep away abandoned locks. -/
theorem quiet {e : Event} (le : latest h ≤ e.now) (acquires : e.acquired? = none) (frees : e.freed? = none)
    (token : t.lastToken = s.lastToken)
    (kept : ∀ (key : String) (l : Lock), t.locks[key]? = some l →
      s.locks[key]? = some l ∧ e.call ≠ .release key l.token)
    (swept : ∀ (key : String) (l : Lock), s.locks[key]? = some l → t.locks[key]? = none → l.since + l.timeout ≤ e.now) :
    Traced (e :: h) t := by
  have tokens_eq : tokens (e :: h) = tokens h := by simp [tokens, acquires]
  have freed_eq : freed (e :: h) = freed h := by simp [freed, frees]
  have no : ∀ key l, e.acquired? ≠ some (key, l) := by simp [acquires]
  refine ⟨?_, ?_, ?_, fun key l here => ?_, fun key l here => ?_, fun key none => ?_,
    fun key key' l l' here here' => ?_, ?_, fun key l here => ?_, ?_⟩
  · rw [tokens_eq, token]; exact traced.count
  · rw [tokens_eq]; exact traced.increasing
  · rw [tokens_eq, token]; exact traced.given
  · obtain ⟨here, call⟩ := kept key l here
    exact (traced.held key l here).cons (no key) call
  · exact Nat.le_trans (traced.since_le key l (kept key l here).1) le
  · refine Free.cons ?_ (no key)
    cases here : s.locks[key]? with
    | none => exact (traced.gone key here).mono le
    | some l => exact ((traced.held key l here).free_iff _).2 (swept key l here none)
  · exact traced.distinct key key' l l' (kept key l here).1 (kept key' l' here').1
  · rw [freed_eq, token]; exact traced.freed_given
  · rw [freed_eq]; exact traced.freed_gone key l (kept key l here).1
  · rw [freed_eq]; exact traced.freed_once

/-- **An acquisition** gives the next token. -/
theorem acquire {now : Instant} {key : String} (timeout : Millis) (few : (tokens h).length + 1 < 2 ^ 64)
    (le : latest h ≤ now) :
    Traced (⟨now, .acquire key timeout, some (s.lastToken + 1)⟩ :: h)
      { s with lastToken := s.lastToken + 1, locks := s.locks.insert key ⟨s.lastToken + 1, now, timeout⟩ } := by
  set e : Event := ⟨now, .acquire key timeout, some (s.lastToken + 1)⟩
  have acquires : e.acquired? = some (key, ⟨s.lastToken + 1, now, timeout⟩) := rfl
  have tokens_eq : tokens (e :: h) = (s.lastToken + 1) :: tokens h := by simp [tokens, acquires]
  have freed_eq : freed (e :: h) = freed h := List.filterMap_cons_none rfl
  have next : s.lastToken < s.lastToken + 1 := by rw [traced.count]; exact Words.lt_succ few
  have no : ∀ key', key ≠ key' → ∀ l, e.acquired? ≠ some (key', l) := by
    rintro key' ne l he
    rw [acquires] at he
    exact ne (by injection he with he; injection he)
  have lookup : ∀ key' l, (s.locks.insert key ⟨s.lastToken + 1, now, timeout⟩)[key']? = some l →
      (key = key' ∧ l = ⟨s.lastToken + 1, now, timeout⟩) ∨ (key ≠ key' ∧ s.locks[key']? = some l) := by
    intro key' l here
    rw [TreeMap.getElem?_insert] at here
    split at here
    · next eq => exact Or.inl ⟨Std.compare_eq_iff_eq.1 eq, (Option.some.inj here).symm⟩
    · next ne => exact Or.inr ⟨fun eq => ne (Std.compare_eq_iff_eq.2 eq), here⟩
  refine ⟨?_, ?_, ?_, fun key' l here => ?_, fun key' l here => ?_, fun key' none => ?_,
    fun key₁ key₂ l₁ l₂ here₁ here₂ same => ?_, ?_, fun key' l here => ?_, ?_⟩
  · show s.lastToken + 1 = _
    rw [tokens_eq, List.length_cons, Words.ofNat_succ, traced.count]
  · rw [tokens_eq]
    exact List.pairwise_cons.2 ⟨fun token mem => UInt64.lt_of_le_of_lt (traced.given token mem) next, traced.increasing⟩
  · rw [tokens_eq]
    intro token mem
    rcases List.mem_cons.1 mem with rfl | mem
    · exact UInt64.le_refl _
    · exact UInt64.le_trans (traced.given token mem) (UInt64.le_of_lt next)
  · rcases lookup key' l here with ⟨rfl, rfl⟩ | ⟨ne, here⟩
    · exact ⟨[], .here acquires, by simp⟩
    · exact (traced.held key' l here).cons (no key' ne) fun eq => nomatch eq
  · rcases lookup key' l here with ⟨rfl, rfl⟩ | ⟨-, here⟩
    · exact Nat.le_refl now
    · exact Nat.le_trans (traced.since_le key' l here) le
  · have ne : key ≠ key' := by
      rintro rfl
      rw [TreeMap.getElem?_insert_self] at none
      cases none
    refine Free.cons ((traced.gone key' ?_).mono le) (no key' ne)
    rw [TreeMap.getElem?_insert, if_neg (fun eq => ne (Std.compare_eq_iff_eq.1 eq))] at none
    exact none
  · rcases lookup key₁ l₁ here₁ with ⟨rfl, rfl⟩ | ⟨-, here₁⟩ <;>
      rcases lookup key₂ l₂ here₂ with ⟨rfl, rfl⟩ | ⟨-, here₂⟩
    · rfl
    · exact absurd (traced.token_le here₂) (by rw [← same]; exact UInt64.not_le.2 next)
    · exact absurd (traced.token_le here₁) (by rw [same]; exact UInt64.not_le.2 next)
    · exact traced.distinct key₁ key₂ l₁ l₂ here₁ here₂ same
  · rw [freed_eq]
    exact fun token mem => UInt64.le_trans (traced.freed_given token mem) (UInt64.le_of_lt next)
  · rw [freed_eq]
    rcases lookup key' l here with ⟨rfl, rfl⟩ | ⟨-, here⟩
    · exact fun mem => absurd (traced.freed_given _ mem) (UInt64.not_le.2 next)
    · exact traced.freed_gone key' l here
  · rw [freed_eq]; exact traced.freed_once

/-- **A release** by the token that holds the lock. -/
theorem release {now : Instant} {key : String} {l : Lock} (here : s.locks[key]? = some l) (le : latest h ≤ now) :
    Traced (⟨now, .release key l.token, true⟩ :: h) { s with locks := s.locks.erase key } := by
  set e : Event := ⟨now, .release key l.token, true⟩
  have tokens_eq : tokens (e :: h) = tokens h := List.filterMap_cons_none rfl
  have freed_eq : freed (e :: h) = l.token :: freed h := List.filterMap_cons_some rfl
  have no : ∀ key l, e.acquired? ≠ some (key, l) := fun _ _ eq => nomatch eq
  have lookup : ∀ (key' : String) (l' : Lock), (s.locks.erase key)[key']? = some l' →
      key ≠ key' ∧ s.locks[key']? = some l' := by
    intro key' l' here'
    rw [TreeMap.getElem?_erase] at here'
    split at here'
    · cases here'
    · next ne => exact ⟨fun eq => ne (Std.compare_eq_iff_eq.2 eq), here'⟩
  have other : ∀ (key' : String) (l' : Lock), (s.locks.erase key)[key']? = some l' → l'.token ≠ l.token :=
    fun key' l' here' same =>
      (lookup key' l' here').1 (traced.distinct key key' l l' here (lookup key' l' here').2 same.symm)
  refine ⟨?_, ?_, ?_, fun key' l' here' => ?_, fun key' l' here' => ?_, fun key' none => ?_,
    fun key₁ key₂ l₁ l₂ here₁ here₂ => ?_, ?_, fun key' l' here' => ?_, ?_⟩
  · rw [tokens_eq]; exact traced.count
  · rw [tokens_eq]; exact traced.increasing
  · rw [tokens_eq]; exact traced.given
  · have call : e.call ≠ .release key' l'.token := fun eq =>
      other key' l' here' (by injection eq with _ eq; exact eq.symm)
    exact (traced.held key' l' (lookup key' l' here').2).cons (no key') call
  · exact Nat.le_trans (traced.since_le key' l' (lookup key' l' here').2) le
  · rw [TreeMap.getElem?_erase] at none
    split at none
    · next eq =>
      -- the history agrees on whose token it was
      cases Std.compare_eq_iff_eq.1 eq
      obtain ⟨since, a, -⟩ := traced.held key l here
      intro l' since' a'
      cases a' with
      | here acquired => exact absurd acquired (no key l')
      | before _ a' =>
        obtain ⟨rfl, -⟩ := a.unique a'
        exact Or.inl ⟨e, List.mem_cons_self, rfl⟩
    · exact ((traced.gone key' none).mono le).cons (no key')
  · exact traced.distinct key₁ key₂ l₁ l₂ (lookup key₁ l₁ here₁).2 (lookup key₂ l₂ here₂).2
  · rw [freed_eq]
    intro token mem
    rcases List.mem_cons.1 mem with rfl | mem
    · exact traced.token_le here
    · exact traced.freed_given token mem
  · rw [freed_eq, List.mem_cons]
    rintro (same | mem)
    · exact other key' l' here' same
    · exact traced.freed_gone key' l' (lookup key' l' here').2 mem
  · rw [freed_eq]
    exact List.nodup_cons.2 ⟨traced.freed_gone key l here, traced.freed_once⟩

/-- An event on the entries alone. -/
theorem same_locks {e : Event} (le : latest h ≤ e.now) (acquires : e.acquired? = none) (frees : e.freed? = none)
    (releases : ∀ key token, e.call ≠ .release key token) (same : SameLocks s t) : Traced (e :: h) t := by
  refine traced.quiet le acquires frees same.lastToken (fun key l here => ⟨?_, releases key l.token⟩) ?_
  · rw [same.locks] at here
    exact here
  · intro key l here none
    rw [same.locks, here] at none
    cases none

/-- **Every event** keeps the tie. -/
theorem event {now : Instant} (call : Call) (few : (tokens (⟨now, call, (s.call now call).1⟩ :: h)).length < 2 ^ 64)
    (le : latest h ≤ now) : Traced (⟨now, call, (s.call now call).1⟩ :: h) (s.call now call).2 := by
  cases call with
  | set key entry => exact traced.same_locks le rfl rfl (fun _ _ eq => nomatch eq) (.set s key entry)
  | get key => exact traced.same_locks le rfl rfl (fun _ _ eq => nomatch eq) (.get s now key)
  | delete key => exact traced.same_locks le rfl rfl (fun _ _ eq => nomatch eq) (.delete s key)
  | isLocked key => exact traced.same_locks le rfl rfl (fun _ _ eq => nomatch eq) (.refl s)
  | invalidateTag tag => exact traced.same_locks le rfl rfl (fun _ _ eq => nomatch eq) (.invalidateTag s tag)
  | clear => exact traced.same_locks le rfl rfl (fun _ _ eq => nomatch eq) ⟨rfl, rfl⟩
  | resetStats => exact traced.same_locks le rfl rfl (fun _ _ eq => nomatch eq) ⟨rfl, rfl⟩
  | acquire key timeout =>
    by_cases locked : s.isLocked now key
    · have : s.call now (.acquire key timeout) = (none, s) := if_pos locked
      rw [this]
      exact traced.same_locks le rfl rfl (fun _ _ eq => nomatch eq) (.refl s)
    · have : s.call now (.acquire key timeout) = (some (s.lastToken + 1),
          { s with lastToken := s.lastToken + 1, locks := s.locks.insert key ⟨s.lastToken + 1, now, timeout⟩ }) :=
        if_neg locked
      rw [this] at few ⊢
      exact traced.acquire timeout few le
  | release key token =>
    have stays (holds : ∀ l, s.locks[key]? = some l → l.token ≠ token) :
        Traced (⟨now, .release key token, false⟩ :: h) s := by
      refine traced.quiet le rfl rfl rfl (fun key' l here => ⟨here, fun eq => ?_⟩) fun key' l here none => ?_
      · injection eq with eq eq'
        subst eq eq'
        exact holds l here rfl
      · rw [here] at none
        cases none
    show Traced (⟨now, .release key token, (s.release key token).1⟩ :: h) (s.release key token).2
    unfold Store.release
    split
    · next l here =>
      split
      · next same =>
        subst same
        exact traced.release here le
      · next ne =>
        refine stays fun l' here' => ?_
        rw [here] at here'
        cases here'
        exact ne
    · next none => exact stays fun l here => by rw [none] at here; cases here
  | cleanup =>
    refine traced.quiet le rfl rfl (lastToken_cleanup s now) (fun key l here => ⟨?_, fun eq => nomatch eq⟩)
      fun key l here none => ?_
    · change (s.cleanup now).2.locks[key]? = some l at here
      rw [locks_cleanup, TreeMap.getElem?_filter', Option.filter_eq_some_iff] at here
      exact here.1
    · change (s.cleanup now).2.locks[key]? = Option.none at none
      rw [locks_cleanup, TreeMap.getElem?_filter', here, Option.filter_some] at none
      split at none
      · cases none
      · next abandoned =>
        have due : l.isAbandoned now = true := by simpa using abandoned
        exact (isAbandoned_iff (Nat.le_trans (traced.since_le key l here) le)).1 due

/-- The table answers as the history does. -/
theorem isLocked_iff {now : Instant} (le : latest h ≤ now) (key : String) :
    s.isLocked now key = true ↔ ¬ Free h key now := by
  unfold Store.isLocked
  split
  · next l here =>
    rw [Bool.not_eq_true', ← Bool.not_eq_true, isAbandoned_iff (Nat.le_trans (traced.since_le key l here) le),
      (traced.held key l here).free_iff]
  · next none => exact iff_of_false (by simp) (not_not_intro ((traced.gone key none).mono le))

/-- A release by anything but the token of the latest acquisition leaves the lock as it is. -/
theorem release_other {key key' : String} {token : Token}
    (other : ∀ l since, LastAcquired key l h since → (key', token) ≠ (key, l.token)) (now : Instant) :
    (s.release key' token).2.isLocked now key = s.isLocked now key := by
  unfold Store.release
  split
  · next l' here' =>
    split
    · next same =>
      have ne : key' ≠ key := by
        rintro rfl
        obtain ⟨since, a, -⟩ := traced.held key' l' here'
        exact other l' since a (by rw [same])
      have : (s.locks.erase key')[key]? = s.locks[key]? := by
        rw [TreeMap.getElem?_erase, if_neg fun eq => ne (Std.compare_eq_iff_eq.1 eq)]
      simp only [isLocked, this]
    · rfl
  · rfl

end Traced

theorem traced_create {capacity : Nat} {s : Store} (create : Store.create capacity = .ok s) : Traced [] s := by
  unfold Store.create at create
  cases made : (Lru.create capacity : Except CacheError (Lru String Entry)) with
  | error _ => rw [made] at create; cases create
  | ok entries =>
    rw [made] at create
    cases create
    have none : ∀ key : String, (∅ : TreeMap String Lock)[key]? = none := fun _ => TreeMap.getElem?_emptyc
    exact {
      count := rfl
      increasing := .nil
      given := fun _ mem => nomatch mem
      held := fun key l here => by rw [none] at here; cases here
      since_le := fun key l here => by rw [none] at here; cases here
      gone := fun _ _ _ _ a => nomatch a
      distinct := fun key _ l _ here => by rw [none] at here; cases here
      freed_given := fun _ mem => nomatch mem
      freed_gone := fun _ _ _ mem => nomatch mem
      freed_once := .nil }

/-- A history accounts for the locks it leaves. -/
theorem History.traced {capacity : Nat} {h : List Event} {s : Store} (history : History capacity h s)
    (few : (tokens h).length < 2 ^ 64) : Traced h s := by
  induction history with
  | create create => exact traced_create create
  | @event h s now call history le ih =>
    have shorter : (tokens h).length ≤ (tokens (⟨now, call, (s.call now call).1⟩ :: h)).length :=
      (List.sublist_cons_self _ _).filterMap _ |>.length_le
    exact (ih (Nat.lt_of_le_of_lt shorter few)).event call few le

/-- **The history decides about the locks**, whatever takeovers, stale releases, sweeps and timeouts it holds. An
acquisition succeeds if and only if the lock is free by the history, and otherwise the lock counts as held; what is
not a release by the latest token leaves it as it is. Tokens grow from one acquisition to the next over all keys, and
none frees a lock twice. -/
theorem locks_follow_history {capacity : Nat} {h : List Event} {s : Store} (history : History capacity h s)
    (few : (tokens h).length < 2 ^ 64) :
    (∀ (key : String) (now : Instant), latest h ≤ now →
      (∀ timeout, (s.acquire now key timeout).1.isSome = true ↔ Free h key now) ∧
      (s.isLocked now key = true ↔ ¬ Free h key now) ∧
      ∀ key' token, (∀ l since, LastAcquired key l h since → (key', token) ≠ (key, l.token)) →
        (s.release key' token).2.isLocked now key = s.isLocked now key) ∧
    (tokens h).Pairwise (· > ·) ∧ (freed h).Nodup := by
  have traced := history.traced few
  refine ⟨fun key now le => ⟨fun timeout => ?_, traced.isLocked_iff le key, fun key' token other =>
    traced.release_other other now⟩, traced.increasing, traced.freed_once⟩
  have locked := traced.isLocked_iff le key
  unfold Store.acquire
  split
  · next is => exact iff_of_false (by simp) (locked.1 is)
  · next is => exact iff_of_true rfl (not_not.1 fun held => is (locked.2 held))

/-- A lock taken over after its timeout stays with its new owner when the old one releases it, and only until its own
timeout. -/
theorem locks_follow_history_takeover : ∃ (h : List Event) (s : Store), History 1 h s ∧ tokens h = [2, 1] ∧
    freed h = [] ∧ s.isLocked 14 "k" = true ∧ (s.acquire 15 "k" 0).1.isSome = true := by
  let h : List Event := [⟨10, .release "k" 1, false⟩, ⟨10, .acquire "k" 5, some 2⟩, ⟨9, .acquire "k" 5, none⟩,
    ⟨0, .acquire "k" 10, some 1⟩]
  let s : Store := ⟨⟨∅, ∅, 0, 1, {}, by decide⟩, ∅, ∅, 0⟩
  have history := (show History 1 [] s from .create rfl).event (.acquire "k" 10) (show 0 ≤ 0 by decide)
    |>.event (.acquire "k" 5) (show 0 ≤ 9 by decide) |>.event (.acquire "k" 5) (show 9 ≤ 10 by decide)
    |>.event (.release "k" 1) (show 10 ≤ 10 by decide)
  have last : LastAcquired "k" ⟨2, 10, 5⟩ h [⟨10, .release "k" 1, false⟩] :=
    .before (by simp [Event.acquired?]) (.here rfl)
  obtain ⟨locks, -, -⟩ := locks_follow_history history (by decide)
  refine ⟨h, _, history, rfl, rfl, (locks "k" 14 (by decide)).2.1.2 fun free => ?_,
    ((locks "k" 15 (by decide)).1 0).2 fun l since a => ?_⟩
  · rcases free _ _ last with ⟨e, mem, release⟩ | due
    · cases List.mem_singleton.1 mem
      exact absurd release (by simp)
    · exact absurd due (by decide)
  · obtain ⟨rfl, -⟩ := last.unique a
    exact Or.inr (by decide)

end ResponseCache.Store
