import ResponseCache.Proofs.Packing
import ResponseCache.Proofs.Pool.Basic

/-!
# Entries that stand for the answer of their key

Let every key have an answer. An entry is `Faithful` if it stands for the answer of its key, and `contract` is the one
of programs that write no other entries; in return they find no others. The store upholds it (`upholds`).
-/

namespace ResponseCache.Faith

open Http

/-- A lock was refused because a live one was held. -/
def LockHeld (key : String) (timeout : Millis) (log : List Program.Event) : Prop :=
  ∃ now store, (⟨now, store, .operate (.acquire key timeout), .ok none⟩ : Program.Event) ∈ log ∧
    store.isLocked now key = true

theorem LockHeld.mono {key : String} {timeout : Millis} {log log' : List Program.Event} (sub : log ⊆ log') :
    LockHeld key timeout log → LockHeld key timeout log'
  | ⟨now, store, mem, locked⟩ => ⟨now, store, sub mem, locked⟩

/-! ## The contract -/

section Contract

variable (S : Surroundings) (answer : String → StoredResponse)

/-- The answer of a key was stored as it is, after a success. -/
def Good (key : String) (value : StoredResponse) : Prop := value = answer key ∧ 200 ≤ value.status ∧ value.status < 300

/-- An entry stands for the answer of its key. -/
def Faithful (key : String) (e : Entry) : Prop := ∃ value, e.unpack = .ok value ∧ Good answer key value

/-- What an event tells: only faithful entries are found, locks are refused for live ones, and handlers answer as they
may. -/
structure Grants (e : Program.Event) : Prop where
  found {now : Instant} {store : Store} {key : String} {entry : Entry} :
    e = ⟨now, store, .operate (.get key), .ok (some entry)⟩ → Faithful answer key entry
  refused {now : Instant} {store : Store} {key : String} {timeout : Millis} :
    e = ⟨now, store, .operate (.acquire key timeout), .ok none⟩ → store.isLocked now key = true
  handled {now : Instant} {store : Store} {endpoint : Nat} {request : Request} {response : Response} :
    e = ⟨now, store, .handle endpoint request, response⟩ → S.answers endpoint request response

/-- Only faithful entries are written. -/
def contract : Program.Contract where
  demands _ action := ∀ key e, action = .operate (.set key e) → Faithful answer key e
  grants := Grants S answer

/-- Every entry of a store is faithful. -/
def AllFaithful (s : Store) : Prop := ∀ key e, s.Holds key e → Faithful answer key e

theorem upholds (others : ∀ op, S.others op → ∀ key e, op ≠ .set key e) :
    Upholds S (AllFaithful answer) (contract S answer) := by
  refine .of_entries others (fun demanded => demanded _ _ rfl) fun holds answered => ⟨?_, ?_, ?_⟩
  · rintro now store key entry ⟨⟩
    exact holds key entry (Store.get_found answered.of_ok.1.symm)
  · rintro now store key timeout ⟨⟩
    exact Store.isLocked_of_acquire answered.of_ok.1.symm
  · rintro now store endpoint request response ⟨⟩
    cases answered with
    | handle answers => exact answers

end Contract

end ResponseCache.Faith
