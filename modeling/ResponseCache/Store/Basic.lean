import ResponseCache.Entry
import ResponseCache.Lru.Basic
import Std.Data.TreeSet

/-!
# The store

A bounded cache of entries, an index from tags to the keys that carry them, and the locks of keys under computation.

- A lookup removes an expired entry and counts a miss.
- Every removal, by whatever path, takes the key out of the index under all its tags.
- A lock belongs to a token. A lock as old as its timeout is abandoned and may be taken over; a token that is no longer
  the current one releases nothing. Tokens grow over all keys and are never given twice.
-/

namespace ResponseCache

/-- Identifies one acquisition of a lock. -/
abbrev Token := UInt64

structure Lock where
  token : Token
  since : Instant
  timeout : Millis
  deriving Repr, DecidableEq

/-- A lock that outlived its timeout counts as free. -/
def Lock.isAbandoned (l : Lock) (now : Instant) : Bool := l.timeout ≤ now - l.since

structure Store where
  entries : Lru String Entry
  /-- The keys that carry a tag. -/
  tagged : Std.TreeMap String (Std.TreeSet String)
  locks : Std.TreeMap String Lock
  /-- The latest token given. -/
  lastToken : Token

namespace Store

/-- The empty store with room for `capacity` entries, at least one. -/
def create (capacity : Nat) : Except CacheError Store :=
  (Lru.create capacity).map fun entries => ⟨entries, ∅, ∅, 0⟩

def size (s : Store) : Nat := s.entries.size

def isEmpty (s : Store) : Bool := s.entries.isEmpty

/-! ## The tag index -/

/-- Enters a key under a tag. -/
def addTag (index : Std.TreeMap String (Std.TreeSet String)) (key tag : String) :
    Std.TreeMap String (Std.TreeSet String) :=
  index.insert tag ((index.getD tag ∅).insert key)

/-- Takes a key out from under a tag, and the tag out of the index when no key is left. -/
def removeTag (index : Std.TreeMap String (Std.TreeSet String)) (key tag : String) :
    Std.TreeMap String (Std.TreeSet String) :=
  match index[tag]? with
  | none => index
  | some keys =>
    let keys := keys.erase key
    if keys.isEmpty then index.erase tag else index.insert tag keys

def tag (s : Store) (key : String) (tags : List String) : Store :=
  { s with tagged := tags.foldl (fun index t => addTag index key t) s.tagged }

def untag (s : Store) (key : String) (tags : List String) : Store :=
  { s with tagged := tags.foldl (fun index t => removeTag index key t) s.tagged }

/-! ## Entries -/

/-- Writes an entry over any previous one; the least recently used entry makes room in a full store. -/
def set (s : Store) (key : String) (entry : Entry) : Store :=
  let s := match s.entries.peek? key with
    | some previous => s.untag key previous.tags
    | none => s
  let s := s.tag key entry.tags
  let (evicted, entries) := s.entries.insert key entry
  let s := { s with entries := entries }
  match evicted with
  | some (victim, old) => s.untag victim old.tags
  | none => s

/-- Removes an entry and tells whether it was there. -/
def delete (s : Store) (key : String) : Bool × Store :=
  match s.entries.remove key with
  | (some entry, entries) => (true, { s with entries := entries }.untag key entry.tags)
  | (none, entries) => (false, { s with entries := entries })

/-- Looks up a live entry; an expired one is removed first and counts as absent. -/
def get (s : Store) (now : Instant) (key : String) : Option Entry × Store :=
  let s := match s.entries.peek? key with
    | some entry => if entry.isExpired now then (s.delete key).2 else s
    | none => s
  let (found, entries) := s.entries.get key
  (found, { s with entries := entries })

/-- Deletes keys and counts those that were there. -/
def deleteAll (s : Store) (keys : List String) : Nat × Store :=
  keys.foldl (fun (count, s) key =>
    let (removed, s) := s.delete key
    (if removed then count + 1 else count, s)) (0, s)

/-- Removes every entry that carries a tag and counts them. -/
def invalidateTag (s : Store) (tag : String) : Nat × Store :=
  match s.tagged[tag]? with
  | none => (0, s)
  | some keys => { s with tagged := s.tagged.erase tag }.deleteAll keys.toList

/-- Removes every entry; locks stay. -/
def clear (s : Store) : Store := { s with entries := s.entries.clear, tagged := ∅ }

/-- Removes the expired entries, which it counts, and the abandoned locks. -/
def cleanup (s : Store) (now : Instant) : Nat × Store :=
  let expired := (s.entries.toList.filter fun (_, e) => e.isExpired now).map (·.1)
  let s := (s.deleteAll expired).2
  (expired.length, { s with locks := s.locks.filter fun _ lock => !lock.isAbandoned now })

/-! ## Locks -/

/-- Whether a live lock is held for a key. -/
def isLocked (s : Store) (now : Instant) (key : String) : Bool :=
  match s.locks[key]? with
  | some lock => !lock.isAbandoned now
  | none => false

/-- Takes the lock of a key under a new token, unless a live lock is held. -/
def acquire (s : Store) (now : Instant) (key : String) (timeout : Millis) : Option Token × Store :=
  if s.isLocked now key then (none, s)
  else
    let token := s.lastToken + 1
    (some token, { s with lastToken := token, locks := s.locks.insert key ⟨token, now, timeout⟩ })

/-- Frees the lock of a key if the token holds it, and tells whether it did. -/
def release (s : Store) (key : String) (token : Token) : Bool × Store :=
  match s.locks[key]? with
  | some lock => if lock.token = token then (true, { s with locks := s.locks.erase key }) else (false, s)
  | none => (false, s)

/-- How many locks are recorded, abandoned ones that were not swept included. -/
def lockCount (s : Store) : Nat := s.locks.size

/-! ## Statistics -/

def stats (s : Store) : Lru.Stats := s.entries.snapshot

def resetStats (s : Store) : Store := { s with entries := s.entries.resetStats }

end Store

end ResponseCache
