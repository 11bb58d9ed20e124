import ResponseCache.Error
import ResponseCache.Lru.Stats
import Std.Data.TreeMap

/-!
# A bounded cache that drops the least recently used entry

Every touch of an entry, by a lookup that finds it or by a write, stamps it with the next tick. `nodes` finds an entry
by its key and `order` finds the key of a tick, so the entry with the least tick is the one touched longest ago. Writing
a new key into a full cache drops that entry first.
-/

namespace ResponseCache

namespace Lru

/-- A value and the tick of its last touch. -/
structure Node (V : Type) where
  value : V
  tick : UInt64

end Lru

structure Lru (K V : Type) [Ord K] where
  nodes : Std.TreeMap K (Lru.Node V)
  order : Std.TreeMap UInt64 K
  /-- The tick of the latest touch. -/
  tick : UInt64
  capacity : Nat
  stats : Lru.Stats
  capacity_pos : 0 < capacity

namespace Lru

variable {K V : Type} [Ord K]

/-- The empty cache with room for `capacity` entries, at least one. -/
def create (capacity : Nat) : Except CacheError (Lru K V) :=
  if h : 0 < capacity then .ok ⟨∅, ∅, 0, capacity, {}, h⟩ else .error (.invalidCapacity capacity)

def size (c : Lru K V) : Nat := c.nodes.size

def isEmpty (c : Lru K V) : Bool := c.nodes.isEmpty

/-- The value of a key, without a touch and without counting. -/
def peek? (c : Lru K V) (k : K) : Option V := c.nodes[k]?.map (·.value)

def contains (c : Lru K V) (k : K) : Bool := c.nodes.contains k

/-- The entries from the least to the most recently touched one. -/
def toList (c : Lru K V) : List (K × V) :=
  c.order.toList.filterMap fun (_, k) => (c.peek? k).map (k, ·)

/-- Stamps the present entry `k`, `node`, with the next tick and gives it the value `v`. -/
def restamp (c : Lru K V) (k : K) (node : Node V) (v : V) : Lru K V :=
  let tick := c.tick + 1
  { c with
    tick := tick
    nodes := c.nodes.insert k ⟨v, tick⟩
    order := (c.order.erase node.tick).insert tick k }

/-- Looks a key up: a hit touches the entry, and either outcome is counted. -/
def get (c : Lru K V) (k : K) : Option V × Lru K V :=
  match c.nodes[k]? with
  | none => (none, { c with stats := c.stats.miss })
  | some node => (some node.value, { c.restamp k node node.value with stats := c.stats.hit })

/-- Drops the least recently touched entry. -/
def evict (c : Lru K V) : Option (K × V) × Lru K V :=
  match c.order.minKey? with
  | none => (none, c)
  | some tick =>
    match c.order[tick]? with
    | none => (none, c)
    | some k =>
      let c := { c with order := c.order.erase tick }
      match c.nodes[k]? with
      | none => (none, c)
      | some node => (some (k, node.value), { c with nodes := c.nodes.erase k, stats := c.stats.eviction })

/-- Writes a key and touches it. A new key in a full cache first drops the least recently touched entry, which is given
back. -/
def insert (c : Lru K V) (k : K) (v : V) : Option (K × V) × Lru K V :=
  match c.nodes[k]? with
  | some node => (none, c.restamp k node v)
  | none =>
    let (evicted, d) := if c.capacity ≤ c.size then c.evict else (none, c)
    let tick := c.tick + 1
    (evicted, { d with tick := tick, order := d.order.insert tick k, nodes := d.nodes.insert k ⟨v, tick⟩ })

/-- Removes a key and gives its value back. -/
def remove (c : Lru K V) (k : K) : Option V × Lru K V :=
  match c.nodes[k]? with
  | none => (none, c)
  | some node => (some node.value, { c with nodes := c.nodes.erase k, order := c.order.erase node.tick })

/-- Drops every entry and keeps the counters. -/
def clear (c : Lru K V) : Lru K V := { c with nodes := ∅, order := ∅ }

/-- Drops up to `count` entries, the least recently touched ones first, and gives them back in that order. -/
def evictMany (c : Lru K V) (done : List (K × V)) : Nat → List (K × V) × Lru K V
  | 0 => (done.reverse, c)
  | count + 1 =>
    match c.evict with
    | (some entry, c) => c.evictMany (entry :: done) count
    | (none, c) => (done.reverse, c)

/-- Changes the capacity and drops the least recently touched entries beyond it. -/
def resize (c : Lru K V) (capacity : Nat) : Except CacheError (List (K × V) × Lru K V) :=
  if h : 0 < capacity then
    .ok ({ c with capacity := capacity, capacity_pos := h }.evictMany [] (c.size - capacity))
  else .error (.invalidCapacity capacity)

/-- The counters with the occupancy. -/
def snapshot (c : Lru K V) : Stats := c.stats.snapshot c.size c.capacity

/-- Zeroes the counters. -/
def resetStats (c : Lru K V) : Lru K V := { c with stats := {} }

end Lru

end ResponseCache
