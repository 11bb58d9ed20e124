import ResponseCache.Proofs.Middleware.Serving

/-!
# Requests keep to their keys

Every operation that is about a key at all is about the key of the request that asks for it (`Reach.own_key`):
look-ups, attempts and writes are demanded so, and what is released was locked before. That is kept whatever the store
holds or answers and whatever others do to it. Requests with different keys therefore do not read what the other one
wrote (`Reach.not_reads`).
-/

namespace ResponseCache

open Program (Event)
open Procedure

/-- The key that an operation is about. -/
def Operation.key? : Operation → Option String
  | get key | set key _ | delete key | acquire key _ | release key _ => some key
  | invalidateTag _ | clear | purge | stats | resetStats => none

/-- **An operation of a request** is about its own key. -/
theorem Procedure.own_key {settings : Settings} {v : Visit} {log : List Event}
    (kept : Program.Kept (contract settings v) log) {e : Event} (mem : e ∈ log) {op : Operation}
    (operates : e.action = .operate op) : ∃ key, v.key? settings = some key ∧ op.key? = some key := by
  obtain ⟨now, store, action, reply⟩ := e
  cases operates
  obtain ⟨later, earlier, rfl, demanded, -⟩ := kept.of_mem mem
  cases op with
  | get key => exact ⟨key, demanded.2, rfl⟩
  | acquire key timeout => exact ⟨key, demanded.1, rfl⟩
  | set key entry => exact ⟨key, demanded.1, rfl⟩
  | release key token =>
    obtain ⟨rest, -, held, -, -, kept⟩ := disarmed_of_released kept mem
    have took := Program.heard_of_mem_heldBy (held ▸ List.mem_singleton_self (⟨key, token⟩ : Guard))
    obtain ⟨now, store, locked⟩ := acquired_of_hold kept took
    obtain ⟨_, _, -, demanded, -⟩ := kept.of_mem locked
    exact ⟨key, demanded.1, rfl⟩
  | _ => exact demanded.elim

/-- The request has looked up a key under which the other one has written. -/
def Task.Reads (t u : Task) : Prop :=
  ∃ key entry, (∃ e ∈ t.log, e.action = .operate (.get key)) ∧ ∃ e ∈ u.log, e.action = .operate (.set key entry)

section Pools

variable {S : Surroundings} {store : Store} {p : Pool} (reach : Reach S store p) {t u : Task} (here : t ∈ p.tasks)
include reach here

/-- **Every operation of a request** is about its own key. -/
theorem Reach.own_key {e : Event} (mem : e ∈ t.log) {op : Operation} (operates : e.action = .operate op) :
    ∃ key, t.visit.key? S.settings = some key ∧ op.key? = some key :=
  Procedure.own_key (Procedure.conforms reach t here).kept mem operates

/-- **Requests with different keys** do not read what the other one wrote. -/
theorem Reach.not_reads (there : u ∈ p.tasks)
    (differ : ∀ key, t.visit.key? S.settings = some key → u.visit.key? S.settings ≠ some key) : ¬ t.Reads u := by
  rintro ⟨key, entry, ⟨e, mem, looks⟩, e', mem', writes⟩
  obtain ⟨own, is, about⟩ := reach.own_key here mem looks
  obtain ⟨own', is', about'⟩ := reach.own_key there mem' writes
  cases about
  cases about'
  exact differ key is is'

end Pools

end ResponseCache
