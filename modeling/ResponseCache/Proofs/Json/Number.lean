import ResponseCache.Proofs.Decimal.Rounding
import ResponseCache.Proofs.Json.Same

/-!
# The texts of numbers

The text of an integer tells the integer (`intText_inj`). The text of a double without its sign is read as a decimal
(`reading`), and what is read is the shortest decimal of the double (`reading_magnitudeText`), wherever the point is
put. As the shortest decimal tells the double, the text of a number tells the number (`text_inj`), and the canonical
text of any value tells the value (`canonical_text_iff`).
-/

namespace ResponseCache.Json

namespace Number

open Decimal (shortest Dyadic Digits)

/-! ## Integers -/

theorem toDigits_inj {m n : Nat} (eq : Nat.toDigits 10 m = Nat.toDigits 10 n) : m = n := by
  rw [← Nat.ofDigitChars_ten_toDigits (n := m), eq, Nat.ofDigitChars_ten_toDigits]

theorem minus_ne_toDigits (cs : List Char) (n : Nat) : '-' :: cs ≠ Nat.toDigits 10 n := by
  intro eq
  have digit := Nat.isDigit_of_mem_toDigits (n := n) (by decide) (by decide) (eq ▸ List.mem_cons_self)
  cases digit

/-- **The text of an integer** tells the integer. -/
theorem intText_inj {m n : Int} (eq : intText m = intText n) : m = n := by
  unfold intText at eq
  split at eq <;> split at eq
  · injection eq with _ eq
    have := toDigits_inj eq
    omega
  · exact (minus_ne_toDigits _ _ eq).elim
  · exact (minus_ne_toDigits _ _ eq.symm).elim
  · have := toDigits_inj eq
    omega

/-! ## Reading -/

/-- The number that digits stand for. -/
def natural (cs : List Char) : Nat := Nat.ofDigitChars 10 cs 0

/-- The exponent that a text with or without a sign stands for. -/
def exponentOf : List Char → Int
  | '-' :: cs => -natural cs
  | '+' :: cs => natural cs
  | cs => natural cs

/-- The number that a text without a sign stands for: digits, with a point among them or without, and an exponent. -/
def reading (cs : List Char) : ℚ :=
  let significand := cs.takeWhile (· != 'e')
  let whole := significand.takeWhile (· != '.')
  let fraction := (significand.dropWhile (· != '.')).tail
  natural (whole ++ fraction) * 10 ^ (exponentOf (cs.dropWhile (· != 'e')).tail - fraction.length)

theorem natural_zeros (n : Nat) (cs : List Char) : natural (List.replicate n '0' ++ cs) = natural cs := by
  rw [natural, Nat.ofDigitChars_append, Nat.ofDigitChars_replicate_zero, Nat.mul_zero, natural]

theorem natural_append_zeros (cs : List Char) (n : Nat) :
    natural (cs ++ List.replicate n '0') = natural cs * 10 ^ n := by
  rw [natural, Nat.ofDigitChars_append, Nat.ofDigitChars_replicate_zero, Nat.mul_comm, natural]

/-- Characters that are all digits. -/
def AllDigits (cs : List Char) : Prop := ∀ c ∈ cs, c.isDigit = true

namespace AllDigits

variable {cs ds : List Char}

theorem toDigits (n : Nat) : AllDigits (Nat.toDigits 10 n) := fun _ mem =>
  Nat.isDigit_of_mem_toDigits (by decide) (by decide) mem

theorem zeros (n : Nat) : AllDigits (List.replicate n '0') := fun c mem => by
  rw [(List.mem_replicate.1 mem).2]
  decide

theorem append (a : AllDigits cs) (b : AllDigits ds) : AllDigits (cs ++ ds) := fun c mem =>
  (List.mem_append.1 mem).elim (a c) (b c)

theorem of_subset (a : AllDigits cs) (sub : ds ⊆ cs) : AllDigits ds := fun c mem => a c (sub mem)

theorem ne {x : Char} (a : AllDigits cs) (other : x.isDigit = false) : ∀ c ∈ cs, (c != x) = true := by
  intro c mem
  apply bne_iff_ne.2
  rintro rfl
  exact absurd (a c mem) (by rw [other]; decide)

end AllDigits

/-- What stands here is nothing, or opened by a mark. -/
def Opens (mark : Char) (cs : List Char) : Prop := ∀ c ∈ cs.head?, c = mark

/-- A text is cut at its first mark. -/
theorem cut_at {mark : Char} {before rest : List Char} (others : ∀ c ∈ before, (c != mark) = true)
    (opens : Opens mark rest) : (before ++ rest).takeWhile (· != mark) = before ∧
      (before ++ rest).dropWhile (· != mark) = rest := by
  rw [List.takeWhile_append_of_pos others, List.dropWhile_append_of_pos others]
  cases rest with
  | nil => exact ⟨List.append_nil _, rfl⟩
  | cons c rest =>
    obtain rfl := opens c rfl
    simp

section Reading

variable {whole fraction point rest cs : List Char}

/-- **What is read** are the digits on both sides of the point, which the exponent moves. -/
theorem reading_append (a : AllDigits whole) (b : AllDigits fraction) (pointed : Opens '.' point)
    (behind : point.tail = fraction) (marked : Opens 'e' rest) : reading (whole ++ point ++ rest) =
      natural (whole ++ fraction) * 10 ^ (exponentOf rest.tail - fraction.length) := by
  subst behind
  have others : ∀ c ∈ whole ++ point, (c != 'e') = true := by
    intro c mem
    rcases List.mem_append.1 mem with mem | mem
    · exact a.ne (by decide) c mem
    · cases point with
      | nil => cases mem
      | cons d ds =>
        obtain rfl := pointed d rfl
        rcases List.mem_cons.1 mem with rfl | mem
        · decide
        · exact b.ne (by decide) c mem
  obtain ⟨significand, exponent⟩ := cut_at others marked
  obtain ⟨before, after⟩ := cut_at (a.ne (by decide)) pointed
  unfold reading
  rw [significand, exponent]
  dsimp only
  rw [before, after]

/-- Digits before a point and behind it. -/
theorem reading_point (a : AllDigits whole) (b : AllDigits fraction) :
    reading (whole ++ '.' :: fraction) = natural (whole ++ fraction) * 10 ^ (-(fraction.length : Int)) := by
  have opens : Opens '.' ('.' :: fraction) := fun c mem => (Option.some.inj mem).symm
  have read := reading_append a b opens rfl (show Opens 'e' [] from nofun)
  rw [List.append_nil] at read
  refine read.trans ?_
  rw [List.tail_nil, show exponentOf [] = 0 from rfl, zero_sub]

/-- **Digits laid out positionally** are read with the first one at its place. -/
theorem reading_positional (digits : AllDigits cs) (e : Int) :
    reading (positional cs e) = natural cs * 10 ^ (e + 1 - cs.length) := by
  unfold positional
  split
  · next small =>
    have zeros := AllDigits.zeros (-e - 1).toNat
    have front : '0' :: (List.replicate (-e - 1).toNat '0' ++ cs) = List.replicate ((-e - 1).toNat + 1) '0' ++ cs := rfl
    refine (reading_point (AllDigits.zeros 1) (zeros.append digits)).trans ?_
    rw [List.replicate_one, List.singleton_append, front, natural_zeros, List.length_append, List.length_replicate]
    congr 2
    omega
  · next large =>
    have padded := digits.append (.zeros (e.toNat + 1 - cs.length))
    have length : (cs ++ List.replicate (e.toNat + 1 - cs.length) '0').length =
        cs.length + (e.toNat + 1 - cs.length) := by
      rw [List.length_append, List.length_replicate]
    have whole := padded.of_subset (List.take_subset (e.toNat + 1) _)
    dsimp only
    split
    · next none =>
      have all := List.drop_eq_nil_iff.1 (List.isEmpty_iff.1 none)
      refine (reading_point whole (.zeros 1)).trans ?_
      rw [List.take_of_length_le all, List.append_assoc, List.replicate_append_replicate, natural_append_zeros]
      push_cast
      rw [mul_assoc, ← zpow_natCast, ← zpow_add₀ (by decide), List.length_singleton]
      congr 2
      omega
    · next some =>
      have more : ¬ (cs ++ List.replicate (e.toNat + 1 - cs.length) '0').length ≤ e.toNat + 1 := fun all =>
        some (List.isEmpty_iff.2 (List.drop_eq_nil_iff.2 all))
      have exact : e.toNat + 1 - cs.length = 0 := by omega
      refine (reading_point whole (padded.of_subset (List.drop_subset _ _))).trans ?_
      rw [List.take_append_drop, List.length_drop, length, exact, List.replicate_zero, List.append_nil]
      congr 2
      omega

/-- **Digits with an exponent** are read the same. -/
theorem reading_exponential (digits : AllDigits cs) (some : cs ≠ []) (e : Int) :
    reading (exponential cs e) = natural cs * 10 ^ (e + 1 - cs.length) := by
  obtain ⟨c, ds, rfl⟩ := List.exists_cons_of_ne_nil some
  have first : AllDigits [c] := digits.of_subset (by simp)
  have others : AllDigits ds := digits.of_subset (List.subset_cons_self c ds)
  have exponent : exponentOf ((if e < 0 then '-' else '+') :: Nat.toDigits 10 e.natAbs) = e := by
    have absolute : natural (Nat.toDigits 10 e.natAbs) = e.natAbs := Nat.ofDigitChars_ten_toDigits
    split
    · rw [exponentOf, absolute]
      omega
    · rw [exponentOf, absolute]
      omega
  have marked : Opens 'e' ('e' :: (if e < 0 then '-' else '+') :: Nat.toDigits 10 e.natAbs) :=
    fun c mem => (Option.some.inj mem).symm
  have place : e - ds.length = e + 1 - (c :: ds).length := by
    rw [List.length_cons]
    omega
  unfold exponential
  cases ds with
  | nil =>
    refine (reading_append first others (show Opens '.' [] from nofun) rfl marked).trans ?_
    rw [List.tail_cons, exponent, place]
    rfl
  | cons d ds =>
    have opens : Opens '.' ('.' :: d :: ds) := fun c mem => (Option.some.inj mem).symm
    refine (reading_append first others opens rfl marked).trans ?_
    rw [List.tail_cons, exponent, place]
    rfl

end Reading

/-! ## Doubles -/

section Doubles

variable {bits : UInt64}

/-- The text of a double without its sign. -/
def magnitudeText (bits : UInt64) : List Char :=
  if bits <<< 1 = 0 then ['0', '.', '0']
  else
    let (cs, e) := digits bits
    if -5 ≤ e ∧ e ≤ 15 then positional cs e else exponential cs e

theorem doubleText_eq (bits : UInt64) :
    doubleText bits = (if isNegative bits then ['-'] else []) ++ magnitudeText bits := by
  unfold doubleText magnitudeText
  dsimp only
  generalize (if isNegative bits then ['-'] else []) = sign
  split <;> rfl

theorem shiftLeft_eq_zero_iff : bits <<< 1 = 0 ↔ bits.toNat % 2 ^ 63 = 0 := by
  rw [← UInt64.toNat_inj]
  simp
  omega

theorem isNegative_iff : isNegative bits = true ↔ 2 ^ 63 ≤ bits.toNat := by
  have := bits.toNat_lt
  rw [isNegative, decide_eq_true_iff, ← UInt64.toNat_inj]
  simp
  omega

/-- **What is read** in the text of a double that is not zero is its shortest decimal. -/
theorem reading_magnitudeText (nonzero : ¬ bits <<< 1 = 0) :
    reading (magnitudeText bits) = (shortest (.ofBits bits)).value := by
  have allDigits : AllDigits (digits bits).1 := .toDigits _
  have nonempty : (digits bits).1 ≠ [] := Nat.toDigits_ne_nil
  have value : (natural (digits bits).1 : ℚ) * 10 ^ ((digits bits).2 + 1 - (digits bits).1.length) =
      (shortest (.ofBits bits)).value := by
    have coefficient : natural (digits bits).1 = (shortest (.ofBits bits)).coefficient := Nat.ofDigitChars_ten_toDigits
    rw [coefficient, Digits.value]
    congr 2
    show (shortest (.ofBits bits)).exponent + ((digits bits).1.length : Int) - 1 + 1 - _ = _
    omega
  rw [magnitudeText, if_neg nonzero, ← value]
  dsimp only
  split
  · exact reading_positional allDigits _
  · exact reading_exponential allDigits nonempty _

/-- The text of a double without its sign starts with a digit. -/
theorem magnitudeText_head (bits : UInt64) : ∃ c cs, magnitudeText bits = c :: cs ∧ c.isDigit = true := by
  have allDigits : AllDigits (digits bits).1 := .toDigits _
  obtain ⟨c, ds, first⟩ := List.exists_cons_of_ne_nil (show (digits bits).1 ≠ [] from Nat.toDigits_ne_nil)
  have digit : c.isDigit = true := allDigits c (first ▸ List.mem_cons_self)
  unfold magnitudeText
  split
  · exact ⟨_, _, rfl, by decide⟩
  · dsimp only
    rw [first]
    split
    · unfold positional
      split
      · exact ⟨_, _, rfl, by decide⟩
      · exact ⟨_, _, rfl, digit⟩
    · exact ⟨_, _, rfl, digit⟩

/-- The text of a double has a point or an exponent. -/
theorem mark_mem_magnitudeText (bits : UInt64) : '.' ∈ magnitudeText bits ∨ 'e' ∈ magnitudeText bits := by
  unfold magnitudeText
  split
  · exact .inl (by simp)
  · dsimp only
    split
    · unfold positional
      split
      · exact .inl (by simp)
      · exact .inl (by simp)
    · unfold exponential
      exact .inr (by simp)

variable {a b : UInt64}

/-- **The text of a double** without its sign tells the double, but for its sign. -/
theorem magnitude_of_text (eq : magnitudeText a = magnitudeText b) : a.toNat % 2 ^ 63 = b.toNat % 2 ^ 63 := by
  have zero : ∀ {bits : UInt64}, bits <<< 1 = 0 → reading (magnitudeText bits) = 0 := by
    intro bits zero
    rw [magnitudeText, if_pos zero]
    refine (reading_point (.zeros 1) (.zeros 1)).trans ?_
    rw [show natural (List.replicate 1 '0' ++ List.replicate 1 '0') = 0 from rfl, Nat.cast_zero, zero_mul]
  have pos : ∀ {bits : UInt64}, ¬ bits <<< 1 = 0 → 0 < bits.toNat % 2 ^ 63 := by
    intro bits nonzero
    rw [shiftLeft_eq_zero_iff] at nonzero
    omega
  have positive : ∀ {bits : UInt64}, ¬ bits <<< 1 = 0 → 0 < reading (magnitudeText bits) := by
    intro bits nonzero
    rw [reading_magnitudeText nonzero, Dyadic.ofBits_eq]
    exact Decimal.value_shortest_pos (Dyadic.fits_nth (pos nonzero))
  have read := congrArg reading eq
  by_cases a_zero : a <<< 1 = 0
  · by_cases b_zero : b <<< 1 = 0
    · rw [shiftLeft_eq_zero_iff.1 a_zero, shiftLeft_eq_zero_iff.1 b_zero]
    · have := positive b_zero
      rw [← read, zero a_zero] at this
      exact absurd this (lt_irrefl 0)
  · by_cases b_zero : b <<< 1 = 0
    · have := positive a_zero
      rw [read, zero b_zero] at this
      exact absurd this (lt_irrefl 0)
    · rw [reading_magnitudeText a_zero, reading_magnitudeText b_zero] at read
      exact Decimal.magnitude_of_shortest (pos a_zero) (pos b_zero) read

theorem doubleText_inj (eq : doubleText a = doubleText b) : a = b := by
  rw [doubleText_eq, doubleText_eq] at eq
  have unsigned : ∀ bits cs, '-' :: cs ≠ magnitudeText bits := by
    intro bits cs eq
    obtain ⟨c, ds, first, digit⟩ := magnitudeText_head bits
    rw [first] at eq
    injection eq with same
    rw [← same] at digit
    exact absurd digit (by decide)
  have lt := a.toNat_lt
  have lt' := b.toNat_lt
  apply UInt64.toNat_inj.1
  cases a_sign : isNegative a with
  | false =>
    cases b_sign : isNegative b with
    | false =>
      rw [a_sign, b_sign] at eq
      have magnitude := magnitude_of_text eq
      have a_small := mt isNegative_iff.2 (Bool.eq_false_iff.1 a_sign)
      have b_small := mt isNegative_iff.2 (Bool.eq_false_iff.1 b_sign)
      omega
    | true =>
      rw [a_sign, b_sign] at eq
      exact absurd eq.symm (unsigned a _)
  | true =>
    cases b_sign : isNegative b with
    | false =>
      rw [a_sign, b_sign] at eq
      exact absurd eq (unsigned b _)
    | true =>
      rw [a_sign, b_sign] at eq
      have magnitude := magnitude_of_text (List.append_cancel_left eq)
      have a_large := isNegative_iff.1 a_sign
      have b_large := isNegative_iff.1 b_sign
      omega

/-- An integer is written without a point and an exponent. -/
theorem intText_ne_doubleText (n : Int) (bits : UInt64) : intText n ≠ doubleText bits := by
  have plain : ∀ c ∈ intText n, c = '-' ∨ c.isDigit = true := by
    unfold intText
    intro c mem
    split at mem
    · exact (List.mem_cons.1 mem).imp_right (AllDigits.toDigits _ c)
    · exact .inr (AllDigits.toDigits _ c mem)
  intro eq
  rw [eq, doubleText_eq] at plain
  rcases mark_mem_magnitudeText bits with mem | mem
  · exact absurd (plain _ (List.mem_append_right _ mem)) (by decide)
  · exact absurd (plain _ (List.mem_append_right _ mem)) (by decide)

end Doubles

/-- **The text of a number** tells the number. -/
theorem text_inj {m n : Number} (eq : m.text = n.text) : m = n := by
  cases m with
  | int m =>
    cases n with
    | int n => rw [intText_inj eq]
    | double bits => exact absurd eq (intText_ne_doubleText m bits)
  | double a =>
    cases n with
    | int n => exact absurd eq.symm (intText_ne_doubleText n a)
    | double b => rw [doubleText_inj eq]

end Number

/-! ## Values -/

/-- What stands in values with one text has one text. -/
theorem child?_of_chars {v w : Json} (eq : chars v = chars w) (step : Step) :
    Option.Rel (fun v w => chars v = chars w) (v.child? step) (w.child? step) := by
  have opening := opening?_eq (x := []) (y := []) (congrArg (· ++ []) eq)
  rcases v with _ | (_ | _) | n | s | items | fields <;> rcases w with _ | (_ | _) | m | t | items' | fields' <;>
    first | (cases opening; done) | exact .none | skip
  · cases step with
    | field name => exact .none
    | item i => exact rel_getElem? (chars_array eq) i
  · cases step with
    | field name => exact rel_last? (chars_object eq) name
    | item i => exact .none

theorem shell_of_chars {v w : Json} (eq : chars v = chars w) : v.shell = w.shell := by
  have opening := opening?_eq (x := []) (y := []) (congrArg (· ++ []) eq)
  rcases v with _ | (_ | _) | m | s | items | fields <;> rcases w with _ | (_ | _) | n | t | items' | fields' <;>
    first | (cases opening; done) | rfl | skip
  · rw [Number.text_inj eq]
  · rw [chars_string eq]

/-- **The text** of a value tells the value. -/
theorem same_of_chars {v w : Json} (eq : chars v = chars w) : v.Same w := by
  intro path
  induction path generalizing v w with
  | nil => exact congrArg some (shell_of_chars eq)
  | cons step path ih =>
    have related := child?_of_chars eq step
    rw [at?, at?]
    cases here : v.child? step with
    | none =>
      cases there : w.child? step with
      | none => rfl
      | some w' => rw [here, there] at related; cases related
    | some v' =>
      cases there : w.child? step with
      | none => rw [here, there] at related; cases related
      | some w' =>
        rw [here, there, Option.rel_some_some] at related
        exact ih related

/-- **Canonical texts** are equal just if the values are the same. -/
theorem canonical_text_iff {v w : Json} : v.canonical.render = w.canonical.render ↔ v.Same w := by
  constructor
  · intro eq
    have eq := congrArg String.toList eq
    rw [render_toList, render_toList] at eq
    have same := same_of_chars eq
    exact (same_canonical v).trans (same.trans (same_canonical w).symm)
  · intro same
    rw [same.canonical_eq]

end ResponseCache.Json
