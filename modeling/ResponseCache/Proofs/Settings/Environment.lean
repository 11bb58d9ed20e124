import Mathlib.Algebra.Ring.Nat
import Mathlib.Data.List.Induction
import Mathlib.Data.List.TakeWhile
import Mathlib.Logic.Function.Basic
import ResponseCache.Proofs.Text.Utf8
import ResponseCache.Settings
import ResponseCache.Store.Basic

/-!
# What an environment says

Each of the ten variables has one field of the settings to itself (`Variable.read_congr`), and together they decide
the settings. A variable for a number says what a numeral between blanks says, if it is in range
(`Measure.value_eq_some_iff`); if it says nothing the default stands. So the settings can always be read, and there is
always room for an entry (`settings_of_environment`).
-/

namespace ResponseCache

/-! ## Texts between blanks -/

namespace Text

/-- A text is its core between blanks; the core has no blank at either end. -/
def Trimmed (text core : List Char) : Prop :=
  ∃ before after, text = before ++ core ++ after ∧ (∀ c ∈ before, isBlank c = true) ∧ (∀ c ∈ after, isBlank c = true) ∧
    (∀ c ∈ core.head?, isBlank c = false) ∧ ∀ c ∈ core.getLast?, isBlank c = false

theorem dropWhile_head? (cs : List Char) : ∀ c ∈ (cs.dropWhile isBlank).head?, isBlank c = false := by
  intro c first
  have := List.head?_dropWhile_not isBlank cs
  rw [Option.mem_def.1 first] at this
  exact this

/-- Nothing but the blanks in front is dropped. -/
theorem dropWhile_append {before rest : List Char} (blank : ∀ c ∈ before, isBlank c = true)
    (clear : ∀ c ∈ rest.head?, isBlank c = false) : (before ++ rest).dropWhile isBlank = rest := by
  rw [List.dropWhile_append_of_pos blank]
  cases rest with
  | nil => rfl
  | cons c rest => exact List.dropWhile_cons_of_neg (by simp [clear c rfl])

/-- **Trimming** gives the core. -/
theorem trimChars_eq_iff {text core : List Char} : trimChars text = core ↔ Trimmed text core := by
  constructor
  · rintro rfl
    let rest := text.dropWhile isBlank
    have front : text.takeWhile isBlank ++ rest = text := List.takeWhile_append_dropWhile
    have back : trimChars text ++ (rest.reverse.takeWhile isBlank).reverse = rest := by
      rw [trimChars, ← List.reverse_append, List.takeWhile_append_dropWhile, List.reverse_reverse]
    refine ⟨text.takeWhile isBlank, (rest.reverse.takeWhile isBlank).reverse, ?_, fun c => List.mem_takeWhile_imp,
      fun c mem => List.mem_takeWhile_imp (List.mem_reverse.1 mem), fun c first => ?_, fun c last => ?_⟩
    · rw [List.append_assoc, back, front]
    · -- what the core begins with, the text without the blanks in front begins with
      refine dropWhile_head? text c ?_
      show rest.head? = some c
      rw [← back, List.head?_append, Option.mem_def.1 first]
      rfl
    · rw [trimChars, List.getLast?_reverse] at last
      exact dropWhile_head? _ c last
  · rintro ⟨before, after, rfl, blank, blank', first, last⟩
    have rest : (before ++ core ++ after).dropWhile isBlank = (core ++ after).dropWhile isBlank := by
      rw [List.append_assoc, List.dropWhile_append_of_pos blank]
    rw [trimChars, rest]
    cases core with
    | nil =>
      rw [List.nil_append, List.dropWhile_eq_nil_iff.2 blank']
      rfl
    | cons c core =>
      have kept : (c :: core ++ after).dropWhile isBlank = c :: core ++ after :=
        List.dropWhile_cons_of_neg (by simp [first c rfl])
      rw [kept, List.reverse_append, dropWhile_append (fun c mem => blank' c (List.mem_reverse.1 mem)),
        List.reverse_reverse]
      rwa [List.head?_reverse]

end Text

namespace Settings

/-! ## Numerals -/

/-- Decimal digits, at least one, with the number that they stand for. -/
inductive Digits : List Char → Nat → Prop
  | one {d : Nat} : d < 10 → Digits [Nat.digitChar d] d
  | more {cs : List Char} {n d : Nat} : Digits cs n → d < 10 → Digits (cs ++ [Nat.digitChar d]) (n * 10 + d)

/-- Digits, with at most one plus sign in front. -/
def Numeral (cs : List Char) (n : Nat) : Prop := Digits cs n ∨ ∃ ds, cs = '+' :: ds ∧ Digits ds n

theorem digitChar_of_isDigit {c : Char} (digit : c.isDigit = true) :
    c.toNat - '0'.toNat < 10 ∧ Nat.digitChar (c.toNat - '0'.toNat) = c := by
  obtain ⟨low, high⟩ := Char.isDigit_iff_toNat.1 digit
  have zero : '0'.toNat = 48 := rfl
  have nine : '9'.toNat = 57 := rfl
  have small : c.toNat - '0'.toNat < 10 := by omega
  refine ⟨small, Char.toNat_inj.1 ?_⟩
  rw [Nat.toNat_digitChar_of_lt_ten small]
  omega

theorem digitsValue_concat (cs : List Char) (c : Char) :
    digitsValue (cs ++ [c]) = digitsValue cs * 10 + (c.toNat - '0'.toNat) := by
  rw [digitsValue, List.foldl_append]
  rfl

theorem Digits.spec {cs : List Char} {n : Nat} (digits : Digits cs n) :
    cs ≠ [] ∧ (∀ c ∈ cs, c.isDigit = true) ∧ digitsValue cs = n := by
  have digit : ∀ {d : Nat}, d < 10 → (Nat.digitChar d).isDigit = true := fun small => by
    rw [Nat.isDigit_digitChar, decide_eq_true small]
  have value : ∀ {d : Nat}, d < 10 → (Nat.digitChar d).toNat - '0'.toNat = d := Nat.toNat_digitChar_sub_48_of_lt_ten
  induction digits with
  | one small =>
    refine ⟨List.cons_ne_nil _ _, fun c mem => List.mem_singleton.1 mem ▸ digit small, ?_⟩
    exact (digitsValue_concat [] _).trans ((Nat.zero_add _).trans (value small))
  | more _ small ih =>
    obtain ⟨-, all, rfl⟩ := ih
    refine ⟨List.append_ne_nil_of_right_ne_nil _ (List.cons_ne_nil _ _), fun c mem => ?_, ?_⟩
    · rcases List.mem_append.1 mem with mem | mem
      · exact all c mem
      · exact List.mem_singleton.1 mem ▸ digit small
    · rw [digitsValue_concat, value small]

theorem digits_of_isDigit (cs : List Char) (some : cs ≠ []) (all : ∀ c ∈ cs, c.isDigit = true) :
    Digits cs (digitsValue cs) := by
  induction cs using List.reverseRecOn with
  | nil => exact absurd rfl some
  | append_singleton cs c ih =>
    obtain ⟨small, same⟩ := digitChar_of_isDigit (all c (by simp))
    rw [digitsValue_concat]
    by_cases first : cs = []
    · subst first
      have one := Digits.one small
      rw [same] at one
      rwa [show digitsValue [] = 0 from rfl, Nat.zero_mul, Nat.zero_add, List.nil_append]
    · have more := (ih first fun c mem => all c (List.mem_append_left _ mem)).more small
      rwa [same] at more

/-- **Digits** are read as the number that they stand for. -/
theorem digits_iff {cs : List Char} {n : Nat} :
    Digits cs n ↔ cs ≠ [] ∧ (∀ c ∈ cs, c.isDigit = true) ∧ digitsValue cs = n := by
  constructor
  · exact Digits.spec
  · rintro ⟨some, all, rfl⟩
    exact digits_of_isDigit cs some all

/-- A text without the plus sign in front of it, if there is one. -/
def unsigned : List Char → List Char
  | '+' :: rest => rest
  | cs => cs

theorem numeral_iff {cs : List Char} {n : Nat} : Numeral cs n ↔ Digits (unsigned cs) n := by
  unfold unsigned
  constructor
  · rintro (digits | ⟨ds, rfl, digits⟩)
    · split
      · have plus := digits.spec.2.1 '+' List.mem_cons_self
        cases plus
      · exact digits
    · exact digits
  · intro digits
    split at digits
    · exact .inr ⟨_, rfl, digits⟩
    · exact .inl digits

theorem parseNat?_eq (bits : Nat) (text : String) : parseNat? bits text =
    if (unsigned text.toList).isEmpty || !(unsigned text.toList).all Char.isDigit then none
    else if digitsValue (unsigned text.toList) < 2 ^ bits then some (digitsValue (unsigned text.toList))
    else none := rfl

/-- **A number is read** from its numerals, if it is in range. -/
theorem parseNat?_eq_some_iff {bits : Nat} {text : String} {n : Nat} :
    parseNat? bits text = some n ↔ Numeral text.toList n ∧ n < 2 ^ bits := by
  rw [numeral_iff, digits_iff, parseNat?_eq]
  generalize unsigned text.toList = digits
  split
  · next bad =>
    refine iff_of_false nofun fun good => ?_
    obtain ⟨⟨some, all, -⟩, -⟩ := good
    rw [Bool.or_eq_true, List.isEmpty_iff, Bool.not_eq_true', List.all_eq_false] at bad
    rcases bad with none | ⟨c, mem, other⟩
    · exact some none
    · exact other (all c mem)
  · next good =>
    rw [Bool.or_eq_true, not_or, List.isEmpty_iff, Bool.not_eq_true', Bool.not_eq_false, List.all_eq_true] at good
    obtain ⟨some, all⟩ := good
    constructor
    · intro read
      split at read
      · next small =>
        cases read
        exact ⟨⟨some, all, rfl⟩, small⟩
      · cases read
    · rintro ⟨⟨-, -, rfl⟩, small⟩
      exact if_pos small

/-! ## Variables -/

/-- The variables that settings are read from. -/
inductive Variable where
  | defaultTtl
  | compressionThreshold
  | keyStart
  | enableStats
  | lockTimeout
  | contention
  | maxEntries
  | maxResponseBytes
  | serverPort
  | cleanupInterval
  deriving DecidableEq

/-- How a variable holds a number: in which field, in a word of how many bits, of how many units of the field each, and
whether it has to be positive. -/
structure Measure where
  field : Settings → Nat
  bits : Nat := 64
  unit : Nat := 1
  positive : Bool := false

namespace Variable

def name : Variable → String
  | defaultTtl => "CACHE_DEFAULT_TTL"
  | compressionThreshold => "CACHE_COMPRESSION_THRESHOLD"
  | keyStart => "CACHE_KEY_PREFIX"
  | enableStats => "CACHE_ENABLE_STATS"
  | lockTimeout => "CACHE_LOCK_TIMEOUT_MS"
  | contention => "CACHE_LOCK_BEHAVIOR"
  | maxEntries => "CACHE_MAX_ENTRIES"
  | maxResponseBytes => "CACHE_MAX_RESPONSE_BYTES"
  | serverPort => "SERVER_PORT"
  | cleanupInterval => "CACHE_CLEANUP_INTERVAL"

/-- What the field of a variable holds. -/
abbrev Value : Variable → Type
  | keyStart => String
  | enableStats => Bool
  | contention => Contention
  | defaultTtl | compressionThreshold | lockTimeout | maxEntries | maxResponseBytes | serverPort
  | cleanupInterval => Nat

/-- The field of a variable. -/
def read : (v : Variable) → Settings → v.Value
  | defaultTtl => Settings.defaultTtl
  | compressionThreshold => Settings.compressionThreshold
  | keyStart => Settings.keyStart
  | enableStats => Settings.enableStats
  | lockTimeout => Settings.lockTimeout
  | contention => Settings.contention
  | maxEntries => Settings.maxEntries
  | maxResponseBytes => Settings.maxResponseBytes
  | serverPort => Settings.serverPort
  | cleanupInterval => Settings.cleanupInterval

/-- How the variable holds a number, if it does. Of the two times one is in seconds. -/
def measure? : Variable → Option Measure
  | defaultTtl => some { field := Settings.defaultTtl, unit := 1000 }
  | compressionThreshold => some { field := Settings.compressionThreshold }
  | lockTimeout => some { field := Settings.lockTimeout }
  | maxEntries => some { field := Settings.maxEntries, positive := true }
  | maxResponseBytes => some { field := Settings.maxResponseBytes }
  | serverPort => some { field := Settings.serverPort, bits := 16 }
  | cleanupInterval => some { field := Settings.cleanupInterval }
  | keyStart | enableStats | contention => none

theorem name_injective : Function.Injective name := by
  intro v w same
  cases v <;> cases w <;> first | rfl | exact absurd same (by decide)

variable {env env' : Environment} {s s' : Settings}

/-- **A field** depends on its own variable alone. -/
theorem read_congr (v : Variable) (same : env v.name = env' v.name) :
    v.read (ofEnvironment env) = v.read (ofEnvironment env') := by
  have text : text? env v.name = text? env' v.name := congrArg (·.bind Text.decode?) same
  have value : ∀ {α : Type} (parse : String → Option α), value? env v.name parse = value? env' v.name parse :=
    fun parse => congrArg (·.bind fun text => parse (Text.trim text)) text
  cases v <;> simp only [read, ofEnvironment, name] at text value ⊢ <;> simp only [text, value]

/-- The fields of the ten variables are all there is to settings. -/
theorem eq_of_read (same : ∀ v : Variable, v.read s = v.read s') : s = s' := by
  obtain ⟨⟩ := s
  obtain ⟨⟩ := s'
  rw [Settings.mk.injEq]
  exact ⟨same defaultTtl, same compressionThreshold, same keyStart, same enableStats, same lockTimeout, same contention,
    same maxEntries, same maxResponseBytes, same serverPort, same cleanupInterval⟩

end Variable

/-! ## Numbers -/

namespace Measure

variable (m : Measure) (env : Environment) (variableName : String)

/-- The variable holds text, and between blanks that is a numeral for a number in range. -/
def Says (n : Nat) : Prop :=
  ∃ text core, env variableName = some (Text.encode text) ∧ Text.Trimmed text.toList core ∧ Numeral core n ∧
    n < 2 ^ m.bits ∧ (m.positive = true → 0 < n)

/-- The number that is read from the variable. -/
def value? : Option Nat :=
  (Settings.value? env variableName (parseNat? m.bits)).filter fun n => !m.positive || 0 < n

/-- **What is read** is what the variable says. -/
theorem value?_eq_some_iff {n : Nat} : m.value? env variableName = some n ↔ m.Says env variableName n := by
  have inRange : (!m.positive || decide (0 < n)) = true ↔ (m.positive = true → 0 < n) := by
    cases m.positive <;> simp
  simp only [value?, Settings.value?, text?, Option.filter_eq_some_iff, Option.bind_eq_some_iff, inRange,
    parseNat?_eq_some_iff, Text.trim, String.toList_ofList]
  constructor
  · rintro ⟨⟨text, ⟨bytes, set, decoded⟩, numeral, small⟩, positive⟩
    cases Text.decode?_eq_some_iff.1 decoded
    exact ⟨text, _, set, Text.trimChars_eq_iff.1 rfl, numeral, small, positive⟩
  · rintro ⟨text, core, set, trimmed, numeral, small, positive⟩
    rw [← Text.trimChars_eq_iff] at trimmed
    subst trimmed
    exact ⟨⟨text, ⟨_, set, Text.decode?_encode text⟩, numeral, small⟩, positive⟩

/-- The field of a number is what is read, in units, or the default. -/
theorem field_eq {v : Variable} (numeric : v.measure? = some m) :
    m.field (ofEnvironment env) = ((m.value? env v.name).map (· * m.unit)).getD (m.field {}) := by
  have any : ∀ o : Option Nat, (o.filter fun n => !false || decide (0 < n)) = o := fun o => by cases o <;> rfl
  have once : ∀ o : Option Nat, o.map (· * 1) = o := fun o => by simp
  cases v <;> cases numeric <;> simp only [value?, any, once] <;> rfl

end Measure

/-- There is always room for an entry. -/
theorem maxEntries_pos (env : Environment) : 0 < (ofEnvironment env).maxEntries := by
  let m : Measure := { field := maxEntries, positive := true }
  have read : (ofEnvironment env).maxEntries = ((m.value? env Variable.maxEntries.name).map (· * 1)).getD 1000 :=
    m.field_eq env rfl
  rw [read]
  cases said : m.value? env Variable.maxEntries.name with
  | none => decide
  | some n =>
    obtain ⟨-, -, -, -, -, -, positive⟩ := (m.value?_eq_some_iff ..).1 said
    exact Nat.mul_pos (positive rfl) Nat.one_pos

end Settings

open Settings

/-- **An environment** gives settings, whatever it holds.

The field of a number is what its variable says, if that is a numeral between blanks for a number in range, and the
default otherwise. A field changes with its own variable only, and nothing but the ten variables is looked at. There is
always room for an entry, so a store can be created. -/
theorem settings_of_environment (env : Environment) :
    (∀ v m, Variable.measure? v = some m → ∀ x, m.field (ofEnvironment env) = x ↔
      (∃ n, m.Says env v.name n ∧ x = n * m.unit) ∨ ((∀ n, ¬ m.Says env v.name n) ∧ x = m.field {})) ∧
    (∀ v w : Variable, v ≠ w → ∀ set, v.read (ofEnvironment (Function.update env w.name set)) =
      v.read (ofEnvironment env)) ∧
    (∀ env', (∀ v : Variable, env v.name = env' v.name) → ofEnvironment env = ofEnvironment env') ∧
    1 ≤ (ofEnvironment env).maxEntries ∧
    ∃ store, Store.create (ofEnvironment env).maxEntries = .ok store ∧
      store.entries.capacity = (ofEnvironment env).maxEntries := by
  refine ⟨fun v m numeric x => ?_, fun v w ne set => ?_, fun env' same => ?_, ?_⟩
  · simp only [m.field_eq env numeric, ← Measure.value?_eq_some_iff]
    cases m.value? env v.name <;> simp [eq_comm]
  · exact v.read_congr (Function.update_of_ne (fun same => ne (Variable.name_injective same)) _ _)
  · exact Variable.eq_of_read fun v => v.read_congr (same v)
  · have room := maxEntries_pos env
    refine ⟨room, ⟨⟨∅, ∅, 0, _, {}, room⟩, ∅, ∅, 0⟩, ?_, rfl⟩
    rw [Store.create, Lru.create, dif_pos room]
    rfl

/-- Seven entries, with a plus sign, leading zeros and blanks; a port that is one too large; and another port, which
leaves the entries alone. -/
theorem settings_of_environment_padded : ∃ env : Environment,
    env "CACHE_MAX_ENTRIES" = some (Text.encode (String.ofList [' ', '+', '0', '0', '7', '\u3000'])) ∧
      env "SERVER_PORT" = some (Text.encode (String.ofList ['6', '5', '5', '3', '6'])) ∧
      (ofEnvironment env).maxEntries = 7 ∧ (ofEnvironment env).serverPort = 3000 ∧
      (ofEnvironment (Function.update env "SERVER_PORT" none)).maxEntries = 7 ∧
      ∃ store, Store.create (ofEnvironment env).maxEntries = .ok store ∧ store.entries.capacity = 7 := by
  let env : Environment := fun name =>
    if name = "CACHE_MAX_ENTRIES" then some (Text.encode (String.ofList [' ', '+', '0', '0', '7', '\u3000']))
    else if name = "SERVER_PORT" then some (Text.encode (String.ofList ['6', '5', '5', '3', '6']))
    else none
  obtain ⟨numbers, alone, -, -, store, created, room⟩ := settings_of_environment env
  have entries : (ofEnvironment env).maxEntries = 7 := by
    refine (numbers .maxEntries _ rfl 7).2 (.inl ⟨7, ⟨_, ['+', '0', '0', '7'], rfl, ?_, ?_, by decide, by decide⟩, rfl⟩)
    · refine ⟨[' '], ['\u3000'], String.toList_ofList, List.all_eq_true.1 rfl, List.all_eq_true.1 rfl, ?_, ?_⟩
      · rintro c ⟨⟩
        rfl
      · rintro c ⟨⟩
        rfl
    · exact .inr ⟨_, rfl, digits_iff.2 ⟨List.cons_ne_nil _ _, List.all_eq_true.1 rfl, rfl⟩⟩
  refine ⟨env, rfl, rfl, entries, ?_, ?_, store, created, room.trans entries⟩
  · refine (numbers .serverPort _ rfl 3000).2 (.inr ⟨?_, rfl⟩)
    rintro n ⟨text, core, set, trimmed, numeral, small, -⟩
    cases Text.encode_inj.1 (Option.some.inj set)
    rw [String.toList_ofList, ← Text.trimChars_eq_iff] at trimmed
    subst trimmed
    obtain ⟨-, -, rfl⟩ := digits_iff.1 (numeral_iff.1 numeral)
    exact absurd small (by decide)
  · exact (alone .maxEntries .serverPort (by decide) none).trans entries

end ResponseCache
