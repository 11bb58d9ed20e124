import ResponseCache.Contention
import ResponseCache.Entry
import ResponseCache.Key.Rule

/-!
# How routes are cached

A rule says how the responses of one route are cached; a table has the rules of an application, by method and template.
Routes without a rule are not cached.
-/

namespace ResponseCache

/-- The cache settings of a route; what is left open is taken from the settings of the cache. -/
structure RouteRule where
  ttl : Option Millis := none
  key : KeyRule := {}
  tags : List String := []
  compress : Bool := true
  contention : Option Contention := none
  lockTimeout : Option Millis := none

/-- One rule for each method and template. -/
structure RouteTable where
  rules : List ((String × String) × RouteRule) := []

namespace RouteTable

def empty : RouteTable := ⟨[]⟩

/-- Enters a rule in the place of any other for the same method and template. -/
def insert (t : RouteTable) (method template : String) (rule : RouteRule) : RouteTable :=
  ⟨((method, template), rule) :: t.rules.filter fun r => r.1 != (method, template)⟩

def find? (t : RouteTable) (method template : String) : Option RouteRule := t.rules.lookup (method, template)

def size (t : RouteTable) : Nat := t.rules.length

def isEmpty (t : RouteTable) : Bool := t.rules.isEmpty

@[simp] theorem find?_insert_self (t : RouteTable) (method template : String) (rule : RouteRule) :
    (t.insert method template rule).find? method template = some rule := by
  simp [insert, find?]

end RouteTable

end ResponseCache
