import ResponseCache.Http.Message
import ResponseCache.Operation
import ResponseCache.Tally

/-!
# Programs

What a request does with the cache is a program: a tree whose nodes are actions on its surroundings, each with a branch
for every reply. Whatever runs a program (a clock and a store in memory, a store that fails at will, many requests that
take turns) may stop after any action and go on later, or never.

Guards are accounted for by the surroundings: between `hold` and `disarm` the program owes the release of a lock, and
whoever gives up a program has to see to the releases that it owes.
-/

namespace ResponseCache

/-- The right to release the lock of a key. -/
structure Guard where
  key : String
  token : Token
  deriving Repr, DecidableEq

inductive Action where
  /-- An operation of the backing store, which may fail. -/
  | operate (op : Operation)
  /-- Reads the clock. -/
  | clock
  | sleep (duration : Millis)
  /-- Adds to the tally. -/
  | count (outcome : Outcome)
  | readTally
  | clearTally
  /-- From here on the program owes the release of a lock. -/
  | hold (guard : Guard)
  /-- The program no longer owes the release of a lock. -/
  | disarm (guard : Guard)
  /-- Runs the handler of an endpoint of the application. -/
  | handle (endpoint : Nat) (request : Http.Request)

/-- What an action is answered with. -/
abbrev Action.Reply : Action → Type
  | operate op => Except CacheError op.Result
  | clock => Instant
  | sleep _ => Unit
  | count _ => Unit
  | readTally => Tally
  | clearTally => Unit
  | hold _ => Unit
  | disarm _ => Unit
  | handle _ _ => Http.Response

inductive Program (α : Type) where
  | done (result : α)
  | perform (action : Action) (resume : action.Reply → Program α)

namespace Program

variable {α β γ : Type}

/-- Goes on with the result of a program. -/
def bind : Program α → (α → Program β) → Program β
  | done a, next => next a
  | perform action resume, next => perform action fun reply => (resume reply).bind next

instance : Monad Program where
  pure := done
  bind := bind

@[simp] theorem pure_eq (a : α) : (pure a : Program α) = done a := rfl

@[simp] theorem done_bind (a : α) (next : α → Program β) : (done a >>= next) = next a := rfl

@[simp] theorem perform_bind (action : Action) (resume : action.Reply → Program α) (next : α → Program β) :
    (perform action resume >>= next) = perform action fun reply => resume reply >>= next := rfl

theorem bind_done (p : Program α) : (p >>= done) = p := by
  induction p with
  | done a => rfl
  | perform action resume ih => exact congrArg (perform action) (funext ih)

theorem bind_assoc (p : Program α) (f : α → Program β) (g : β → Program γ) :
    (p >>= f >>= g) = (p >>= fun a => f a >>= g) := by
  induction p with
  | done a => rfl
  | perform action resume ih => exact congrArg (perform action) (funext ih)

instance : LawfulMonad Program :=
  LawfulMonad.mk' _ (fun p => bind_done p) (fun _ _ => rfl) bind_assoc

/-! ## One action

Each is a tree of one node, and is taken for that when a program is simplified. -/

@[simp] def act (action : Action) : Program action.Reply := perform action done

@[simp] def operate (op : Operation) : Program (Except CacheError op.Result) := act (.operate op)

@[simp] def clock : Program Instant := act .clock

@[simp] def sleep (duration : Millis) : Program Unit := act (.sleep duration)

@[simp] def hold (guard : Guard) : Program Unit := act (.hold guard)

@[simp] def disarm (guard : Guard) : Program Unit := act (.disarm guard)

@[simp] def handle (endpoint : Nat) (request : Http.Request) : Program Http.Response := act (.handle endpoint request)

end Program

/-- Frees the lock. The guard is disarmed before the store is asked, and a store that fails is not asked again: the
lock then lives until its timeout. -/
def Guard.release (g : Guard) : Program Unit := do
  Program.disarm g
  let _ ← Program.operate (.release g.key g.token)

end ResponseCache
