import ResponseCache.Contention
import ResponseCache.Entry
import ResponseCache.Text.Utf8

/-!
# Settings

The settings of a cache, with their defaults, and how they are read from environment variables. A variable that is
missing, that is no text or that does not hold a value of the right form leaves the default in place, so reading never
fails.
-/

namespace ResponseCache

structure Settings where
  /-- How long a response is kept unless its route says otherwise. -/
  defaultTtl : Millis := 300000
  /-- Bodies of at least this many bytes are stored compressed. -/
  compressionThreshold : Nat := 1024
  /-- What every generated key starts with. -/
  keyStart : String := "cache"
  /-- Whether outcomes are counted. -/
  enableStats : Bool := true
  /-- How long a lock lives, and how long others wait for its holder. -/
  lockTimeout : Millis := 5000
  contention : Contention := .wait
  maxEntries : Nat := 1000
  /-- Larger response bodies are passed through and not stored. -/
  maxResponseBytes : Nat := 10485760
  serverPort : Nat := 3000
  /-- Seconds between two sweeps. -/
  cleanupInterval : Nat := 1

namespace Settings

/-- The bytes of each variable that is set. -/
abbrev Environment := String → Option ByteArray

/-- The number that decimal digits stand for. -/
def digitsValue (cs : List Char) : Nat := cs.foldl (fun n c => n * 10 + (c.toNat - '0'.toNat)) 0

/-- A number of at most `bits` bits: decimal digits, with at most one plus sign in front. -/
def parseNat? (bits : Nat) (text : String) : Option Nat :=
  let digits := match text.toList with
    | '+' :: rest => rest
    | cs => cs
  if digits.isEmpty || !digits.all Char.isDigit then none
  else
    let n := digitsValue digits
    if n < Nat.pow 2 bits then some n else none

def parseBool? : String → Option Bool
  | "true" => some true
  | "false" => some false
  | _ => none

/-- The text of a variable. -/
def text? (env : Environment) (variableName : String) : Option String := (env variableName).bind Text.decode?

/-- The value of a variable, read from its text without the blanks around it. -/
def value? {α : Type} (env : Environment) (variableName : String) (parse : String → Option α) : Option α :=
  (text? env variableName).bind fun text => parse (Text.trim text)

/-- The settings of an environment. -/
def ofEnvironment (env : Environment) : Settings :=
  let defaults : Settings := {}
  { defaultTtl := ((value? env "CACHE_DEFAULT_TTL" (parseNat? 64)).map (· * 1000)).getD defaults.defaultTtl
    compressionThreshold :=
      (value? env "CACHE_COMPRESSION_THRESHOLD" (parseNat? 64)).getD defaults.compressionThreshold
    keyStart := ((text? env "CACHE_KEY_PREFIX").filter (!·.isEmpty)).getD defaults.keyStart
    enableStats := (value? env "CACHE_ENABLE_STATS" parseBool?).getD defaults.enableStats
    lockTimeout := (value? env "CACHE_LOCK_TIMEOUT_MS" (parseNat? 64)).getD defaults.lockTimeout
    contention := (value? env "CACHE_LOCK_BEHAVIOR" fun t => (Contention.parse t).toOption).getD defaults.contention
    maxEntries := ((value? env "CACHE_MAX_ENTRIES" (parseNat? 64)).filter (0 < ·)).getD defaults.maxEntries
    maxResponseBytes := (value? env "CACHE_MAX_RESPONSE_BYTES" (parseNat? 64)).getD defaults.maxResponseBytes
    serverPort := (value? env "SERVER_PORT" (parseNat? 16)).getD defaults.serverPort
    cleanupInterval := (value? env "CACHE_CLEANUP_INTERVAL" (parseNat? 64)).getD defaults.cleanupInterval }

end Settings

end ResponseCache
