import ResponseCache.Store.Basic

/-!
# What happens to a store

A `Call` is an operation on a store with its arguments, and an `Event` is a call at an instant with its answer. A
`History` tells, the latest event first, how an empty store came to be what it is; the instants of its events never go
back.
-/

namespace ResponseCache.Store

inductive Call where
  | set (key : String) (entry : Entry)
  | get (key : String)
  | delete (key : String)
  | acquire (key : String) (timeout : Millis)
  | release (key : String) (token : Token)
  | isLocked (key : String)
  | invalidateTag (tag : String)
  | clear
  | cleanup
  | resetStats

/-- What a call answers. -/
abbrev Call.Result : Call → Type
  | set _ _ => Unit
  | get _ => Option Entry
  | delete _ => Bool
  | acquire _ _ => Option Token
  | release _ _ => Bool
  | isLocked _ => Bool
  | invalidateTag _ => Nat
  | clear => Unit
  | cleanup => Nat
  | resetStats => Unit

/-- Carries out a call at an instant. -/
def call (s : Store) (now : Instant) : (call : Call) → call.Result × Store
  | .set key entry => ((), s.set key entry)
  | .get key => s.get now key
  | .delete key => s.delete key
  | .acquire key timeout => s.acquire now key timeout
  | .release key token => s.release key token
  | .isLocked key => (s.isLocked now key, s)
  | .invalidateTag tag => s.invalidateTag tag
  | .clear => ((), s.clear)
  | .cleanup => s.cleanup now
  | .resetStats => ((), s.resetStats)

/-- A call at an instant, and what it answered. -/
structure Event where
  now : Instant
  call : Call
  result : call.Result

/-- The instant of the latest event. -/
def latest : List Event → Instant
  | [] => 0
  | e :: _ => e.now

/-- The events that led from an empty store with room for `capacity` entries to the store at hand, the latest first. -/
inductive History (capacity : Nat) : List Event → Store → Prop
  | create {s : Store} : Store.create capacity = .ok s → History capacity [] s
  | event {h : List Event} {s : Store} {now : Instant} (call : Call) : History capacity h s → latest h ≤ now →
      History capacity (⟨now, call, (s.call now call).1⟩ :: h) (s.call now call).2

/-! ## Deleting many keys -/

/-- The deletion of one more key, counted. -/
def deleteNext (p : Nat × Store) (key : String) : Nat × Store :=
  (if (p.2.delete key).1 then p.1 + 1 else p.1, (p.2.delete key).2)

theorem deleteAll_eq (s : Store) (keys : List String) : s.deleteAll keys = keys.foldl deleteNext (0, s) := rfl

/-- The count goes on from where it was. -/
theorem foldl_deleteNext (keys : List String) : ∀ (n : Nat) (s : Store),
    keys.foldl deleteNext (n, s) = ((s.deleteAll keys).1 + n, (s.deleteAll keys).2) := by
  induction keys with
  | nil => intro n s; simp [deleteAll_eq]
  | cons key keys ih =>
    intro n s
    rw [deleteAll_eq, List.foldl_cons, List.foldl_cons, deleteNext, deleteNext, ih, ih]
    cases (s.delete key).1
    · simp
    · simp only [if_true, Prod.mk.injEq, and_true]
      omega

theorem deleteAll_cons (s : Store) (key : String) (keys : List String) :
    s.deleteAll (key :: keys) =
      (((s.delete key).2.deleteAll keys).1 + (s.delete key).1.toNat, ((s.delete key).2.deleteAll keys).2) := by
  rw [deleteAll_eq, List.foldl_cons, deleteNext, foldl_deleteNext]
  cases (s.delete key).1 <;> simp

/-- What each deletion keeps. -/
theorem deleteAll_keeps {p : Store → Prop} (delete : ∀ s key, p s → p (s.delete key).2) :
    ∀ {keys : List String} {s : Store}, p s → p (s.deleteAll keys).2
  | [], _, h => h
  | key :: keys, s, h => by
    rw [deleteAll_cons]
    exact deleteAll_keeps delete (delete s key h)

/-! ## What leaves the locks alone -/

/-- The locks and the tokens given are the same in two stores. -/
structure SameLocks (s t : Store) : Prop where
  locks : t.locks = s.locks
  lastToken : t.lastToken = s.lastToken

namespace SameLocks

theorem refl (s : Store) : SameLocks s s := ⟨rfl, rfl⟩

theorem trans {s t u : Store} (h : SameLocks s t) (h' : SameLocks t u) : SameLocks s u :=
  ⟨h'.locks.trans h.locks, h'.lastToken.trans h.lastToken⟩

theorem set (s : Store) (key : String) (entry : Entry) : SameLocks s (s.set key entry) := by
  unfold Store.set
  constructor <;> (dsimp only; split <;> split <;> rfl)

theorem delete (s : Store) (key : String) : SameLocks s (s.delete key).2 := by
  unfold Store.delete
  split <;> exact ⟨rfl, rfl⟩

theorem get (s : Store) (now : Instant) (key : String) : SameLocks s (s.get now key).2 := by
  unfold Store.get
  split
  · split
    · exact (delete s key).trans ⟨rfl, rfl⟩
    · exact ⟨rfl, rfl⟩
  · exact ⟨rfl, rfl⟩

theorem deleteAll (s : Store) (keys : List String) : SameLocks s (s.deleteAll keys).2 :=
  deleteAll_keeps (fun t key h => h.trans (delete t key)) (refl s)

theorem invalidateTag (s : Store) (tag : String) : SameLocks s (s.invalidateTag tag).2 := by
  unfold Store.invalidateTag
  split
  · exact refl s
  · next keys _ =>
    have := deleteAll { s with tagged := s.tagged.erase tag } keys.toList
    exact ⟨this.locks, this.lastToken⟩

end SameLocks

/-- A sweep leaves the locks that are not abandoned. -/
theorem locks_cleanup (s : Store) (now : Instant) :
    (s.cleanup now).2.locks = s.locks.filter fun _ lock => !lock.isAbandoned now := by
  rw [← (SameLocks.deleteAll s _).locks]
  rfl

theorem lastToken_cleanup (s : Store) (now : Instant) : (s.cleanup now).2.lastToken = s.lastToken :=
  (SameLocks.deleteAll s _).lastToken

end ResponseCache.Store
