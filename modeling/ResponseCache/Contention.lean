import ResponseCache.Text.Blank

/-!
# Contention policies

What a request does when the key it needs is being computed by another one.
-/

namespace ResponseCache

inductive Contention where
  /-- Poll for the result up to the lock timeout, then compute. -/
  | wait
  /-- Compute at once, without the lock. -/
  | bypass
  /-- Refuse, with a hint when to retry. -/
  | fail
  deriving Repr, DecidableEq

namespace Contention

def name : Contention → String
  | wait => "wait"
  | bypass => "bypass"
  | fail => "fail"

/-- The policy of exactly this name. -/
def ofName? : String → Option Contention
  | "wait" => some wait
  | "bypass" => some bypass
  | "fail" => some fail
  | _ => none

/-- A policy as people write it: blanks around the name and the case of its letters do not matter. -/
def parse (text : String) : Except String Contention :=
  let name := (Text.trim text).toLower
  match ofName? name with
  | some policy => .ok policy
  | none => .error ("unknown lock behavior: " ++ name)

theorem ofName?_name (policy : Contention) : ofName? policy.name = some policy := by
  cases policy <;> rfl

end Contention

end ResponseCache
