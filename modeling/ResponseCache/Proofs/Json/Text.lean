import Mathlib.Data.List.Basic
import ResponseCache.Json.Parser
import ResponseCache.Json.Printer

/-!
# The texts of JSON values

The text of a value tells where it ends, whatever stands behind it, as long as that does not go on with a number
(`chars_cancel`). So the text of an array tells the texts of its items, and the text of an object the names of its
fields and the texts of their values. A string is read back from its text (`stringRest?_escape`).
-/

namespace ResponseCache.Json

/-! ## Numbers -/

/-- The characters that the text of a number is made of. -/
def isNumberChar (c : Char) : Bool := c.isDigit || c == '+' || c == '-' || c == '.' || c == 'e'

/-- What stands here does not go on with a number. -/
def Ends (cs : List Char) : Prop := ∀ c ∈ cs.head?, isNumberChar c = false

theorem ends_cons {c : Char} {cs : List Char} (other : isNumberChar c = false) : Ends (c :: cs) := by
  rintro c' ⟨⟩
  exact other

/-- Characters that can be the text of a number. -/
def IsNumberText (cs : List Char) : Prop := cs ≠ [] ∧ ∀ c ∈ cs, isNumberChar c = true

theorem IsNumberText.cons {c : Char} {cs : List Char} (here : isNumberChar c = true) (text : IsNumberText cs) :
    IsNumberText (c :: cs) := ⟨by simp, List.forall_mem_cons.2 ⟨here, text.2⟩⟩

namespace Number

theorem toDigits_text (n : Nat) : IsNumberText (Nat.toDigits 10 n) := by
  refine ⟨Nat.toDigits_ne_nil, fun c mem => ?_⟩
  simp [isNumberChar, Nat.isDigit_of_mem_toDigits (by decide) (by decide) mem]

theorem positional_text {cs : List Char} (text : IsNumberText cs) (e : Int) : IsNumberText (positional cs e) := by
  have padded : ∀ n, ∀ c ∈ cs ++ List.replicate n '0', isNumberChar c = true := by
    intro n c mem
    rcases List.mem_append.1 mem with mem | mem
    · exact text.2 c mem
    · exact (List.mem_replicate.1 mem).2 ▸ by decide
  unfold positional
  split
  · refine .cons (by decide) (.cons (by decide) ⟨by simp [text.1], fun c mem => ?_⟩)
    exact padded _ c ((List.perm_append_comm).subset mem)
  · refine ⟨by simp, fun c mem => ?_⟩
    rcases List.mem_append.1 mem with mem | mem
    · exact padded _ c (List.mem_of_mem_take mem)
    rcases List.mem_cons.1 mem with rfl | mem
    · decide
    split at mem
    · exact List.mem_singleton.1 mem ▸ by decide
    · exact padded _ c (List.mem_of_mem_drop mem)

theorem exponential_text {cs : List Char} (text : IsNumberText cs) (e : Int) : IsNumberText (exponential cs e) := by
  unfold exponential
  refine ⟨by simp, fun c mem => ?_⟩
  simp only [List.mem_append, List.mem_cons] at mem
  rcases mem with (mem | mem) | rfl | rfl | mem
  · exact text.2 c (List.mem_of_mem_take mem)
  · generalize rest : cs.drop 1 = ds at mem
    cases ds with
    | nil => cases mem
    | cons d ds =>
      rcases List.mem_cons.1 mem with rfl | mem
      · decide
      · exact text.2 c (List.mem_of_mem_drop (rest ▸ mem))
  · decide
  · split <;> decide
  · exact (toDigits_text _).2 c mem

theorem doubleText_text (bits : UInt64) : IsNumberText (doubleText bits) := by
  have signed : ∀ {cs : List Char}, IsNumberText cs → IsNumberText ((if isNegative bits then ['-'] else []) ++ cs) := by
    intro cs text
    split
    · exact .cons (by decide) text
    · exact text
  unfold doubleText
  dsimp only
  generalize (if isNegative bits then ['-'] else []) = sign at signed
  split
  · exact signed (.cons (by decide) (.cons (by decide) ⟨by simp, List.forall_mem_singleton.2 (by decide)⟩))
  · refine signed ?_
    split
    · exact positional_text (toDigits_text _) _
    · exact exponential_text (toDigits_text _) _

theorem text_text (n : Number) : IsNumberText n.text := by
  cases n with
  | int value =>
    show IsNumberText (intText value)
    unfold intText
    split
    · exact .cons (by decide) (toDigits_text _)
    · exact toDigits_text _
  | double bits => exact doubleText_text bits

end Number

/-! ## Strings -/

/-- A character that is escaped by its number. -/
theorem hex4?_control {n : Nat} (control : n < 32) :
    hex4? '0' '0' (hexDigit (n / 16)) (hexDigit (n % 16)) = some n := by
  decide +revert

theorem stringRest?_unicode {a b c d : Char} {n : Nat} (number : hex4? a b c d = some n)
    (plain : isHighSurrogate n = false ∧ isLowSurrogate n = false) (done cs : List Char) :
    stringRest? done ('\\' :: 'u' :: a :: b :: c :: d :: cs) = stringRest? (Char.ofNat n :: done) cs := by
  rw [stringRest?.eq_def]
  split
  case h_3 eq =>
    simp only [List.cons.injEq, true_and] at eq
    obtain ⟨rfl, rfl, rfl, rfl, rfl⟩ := eq
    rw [number]
    simp [plain]
  all_goals grind

theorem stringRest?_plain {c : Char} (quote : c ≠ '"') (backslash : c ≠ '\\') (printable : ¬ c.toNat < 32)
    (done cs : List Char) : stringRest? done (c :: cs) = stringRest? (c :: done) cs := by
  rw [stringRest?.eq_def]
  split
  case h_5 eq =>
    injection eq with same rest
    rw [← same, ← rest, if_neg printable]
  all_goals simp_all

theorem stringRest?_escapeChar (c : Char) (done cs : List Char) :
    stringRest? done (escapeChar c ++ cs) = stringRest? (c :: done) cs := by
  unfold escapeChar
  split
  case h_8 quote backslash _ _ _ _ _ =>
    split
    · next control =>
      refine (stringRest?_unicode (hex4?_control control) ?_ done cs).trans ?_
      · simp only [isHighSurrogate, isLowSurrogate, Bool.and_eq_false_iff, decide_eq_false_iff_not]
        omega
      · rw [Char.ofNat_toNat]
    · next printable => exact stringRest?_plain quote backslash printable done cs
  all_goals rfl

/-- **A string is read back** from the text that is written of it. -/
theorem stringRest?_escape (s cs : List Char) : ∀ done : List Char,
    stringRest? done (escape s ++ '"' :: cs) = some (done.reverse ++ s, cs) := by
  induction s with
  | nil => intro done; simp [escape, stringRest?]
  | cons c s ih =>
    intro done
    rw [escape, List.flatMap_cons, List.append_assoc, stringRest?_escapeChar]
    refine (ih (c :: done)).trans ?_
    rw [List.reverse_cons, List.append_assoc, List.singleton_append]

/-- A quoted string. -/
def quotedChars (s : String) : List Char := '"' :: (escape s.toList ++ ['"'])

theorem quoted_toList (s : String) : (quoted s).toList = quotedChars s := by
  simp [quoted, quotedChars]

theorem quotedChars_cancel {s t : String} {x y : List Char} (eq : quotedChars s ++ x = quotedChars t ++ y) :
    s = t ∧ x = y := by
  have behind : ∀ (s : String) (x : List Char), quotedChars s ++ x = '"' :: (escape s.toList ++ '"' :: x) := by
    simp [quotedChars]
  rw [behind, behind] at eq
  injection eq with _ eq
  have same := congrArg (stringRest? []) eq
  rw [stringRest?_escape, stringRest?_escape] at same
  injection same with same
  injection same with same rest
  exact ⟨String.toList_inj.1 same, rest⟩

/-! ## Values -/

mutual

/-- The characters of the text of a value. -/
def chars : Json → List Char
  | .null => ['n', 'u', 'l', 'l']
  | .bool true => ['t', 'r', 'u', 'e']
  | .bool false => ['f', 'a', 'l', 's', 'e']
  | .number n => n.text
  | .string s => quotedChars s
  | .array items => '[' :: itemChars [] items
  | .object fields => '{' :: fieldChars [] fields

/-- The characters of items and of the bracket behind them. -/
def itemChars (gap : List Char) : List Json → List Char
  | [] => [']']
  | v :: rest => gap ++ (chars v ++ itemChars [','] rest)

/-- The characters of fields and of the brace behind them. -/
def fieldChars (gap : List Char) : List (String × Json) → List Char
  | [] => ['}']
  | (name, v) :: rest => gap ++ (quotedChars name ++ ':' :: (chars v ++ fieldChars [','] rest))

end

mutual

theorem write_toList (out : String) : ∀ v : Json, (write out v).toList = out.toList ++ chars v
  | .null => by simp [write, chars]
  | .bool true => by simp [write, chars]
  | .bool false => by simp [write, chars]
  | .number n => by simp [write, chars]
  | .string s => by simp [write, chars, quoted_toList]
  | .array items => by
    have := writeItems_toList (out ++ "[") "" items
    simp_all [write, chars]
  | .object fields => by
    have := writeFields_toList (out ++ "\x7b") "" fields
    simp_all [write, chars]

theorem writeItems_toList (out gap : String) : ∀ items : List Json,
    (writeItems out gap items).toList ++ [']'] = out.toList ++ itemChars gap.toList items
  | [] => by simp [writeItems, itemChars]
  | v :: rest => by
    rw [writeItems, writeItems_toList _ "," rest, write_toList, itemChars]
    simp

theorem writeFields_toList (out gap : String) : ∀ fields : List (String × Json),
    (writeFields out gap fields).toList ++ ['}'] = out.toList ++ fieldChars gap.toList fields
  | [] => by simp [writeFields, fieldChars]
  | (name, v) :: rest => by
    rw [writeFields, writeFields_toList _ "," rest, write_toList, fieldChars]
    simp [quoted_toList]

end

/-- **The text of a value** is made of these characters. -/
theorem render_toList (v : Json) : (render v).toList = chars v := write_toList "" v

/-! ## Where a value ends -/

theorem takeWhile_number {a x : List Char} (text : IsNumberText a) (ends : Ends x) :
    (a ++ x).takeWhile isNumberChar = a := by
  rw [List.takeWhile_append_of_pos text.2]
  cases x with
  | nil => simp
  | cons c x => rw [List.takeWhile_cons_of_neg (by simpa using ends c rfl), List.append_nil]

theorem number_cancel {a b x y : List Char} (ha : IsNumberText a) (hb : IsNumberText b) (ex : Ends x) (ey : Ends y)
    (eq : a ++ x = b ++ y) : a = b ∧ x = y := by
  have same : a = b := (takeWhile_number ha ex).symm.trans (eq ▸ takeWhile_number hb ey)
  subst same
  exact ⟨rfl, List.append_cancel_left eq⟩

/-- The character that a value opens with, unless it is a number. -/
def opening? : Json → Option Char
  | .null => some 'n'
  | .bool true => some 't'
  | .bool false => some 'f'
  | .number _ => none
  | .string _ => some '"'
  | .array _ => some '['
  | .object _ => some '{'

theorem chars_head (v : Json) : ∃ c cs, chars v = c :: cs ∧ opening? v = if isNumberChar c then none else some c := by
  rcases v with _ | (_ | _) | n | s | items | fields
  case number =>
    obtain ⟨some, text⟩ := n.text_text
    obtain ⟨c, cs, eq⟩ := List.exists_cons_of_ne_nil some
    exact ⟨c, cs, eq, (if_pos (text c (eq ▸ List.mem_cons_self))).symm⟩
  all_goals exact ⟨_, _, rfl, rfl⟩

theorem opening?_eq {v w : Json} {x y : List Char} (eq : chars v ++ x = chars w ++ y) : opening? v = opening? w := by
  obtain ⟨c, cs, head, opening⟩ := chars_head v
  obtain ⟨c', cs', head', opening'⟩ := chars_head w
  rw [head, head', List.cons_append, List.cons_append] at eq
  injection eq with same
  rw [opening, opening', same]

/-- No value begins with a bracket that closes an array. -/
theorem close_ne_chars (v : Json) (x y : List Char) : ']' :: x ≠ chars v ++ y := by
  intro eq
  obtain ⟨c, cs, head, opening⟩ := chars_head v
  rw [head, List.cons_append] at eq
  injection eq with same
  subst same
  rw [if_neg (by decide)] at opening
  rcases v with _ | (_ | _) | n | s | items | fields <;> cases opening

theorem ends_itemChars (rest : List Json) (x : List Char) : Ends (itemChars [','] rest ++ x) := by
  cases rest <;> exact ends_cons (by decide)

theorem ends_fieldChars (rest : List (String × Json)) (x : List Char) : Ends (fieldChars [','] rest ++ x) := by
  cases rest <;> exact ends_cons (by decide)

mutual

/-- **The text of a value tells where it ends.** -/
theorem chars_cancel {x y : List Char} (ex : Ends x) (ey : Ends y) : ∀ v w : Json, chars v ++ x = chars w ++ y →
    chars v = chars w ∧ x = y := by
  intro v w eq
  have same := opening?_eq eq
  -- two values of different kinds open differently
  rcases v with _ | (_ | _) | n | s | items | fields <;> rcases w with _ | (_ | _) | m | t | items' | fields' <;>
    first | (cases same; done) | skip
  · exact ⟨rfl, List.append_cancel_left eq⟩
  · exact ⟨rfl, List.append_cancel_left eq⟩
  · exact ⟨rfl, List.append_cancel_left eq⟩
  · exact number_cancel n.text_text m.text_text ex ey eq
  · obtain ⟨rfl, rest⟩ := quotedChars_cancel eq
    exact ⟨rfl, rest⟩
  · injection eq with _ eq
    obtain ⟨items, -, rest⟩ := itemChars_cancel (.inl rfl) items items' eq
    exact ⟨congrArg ('[' :: ·) items, rest⟩
  · injection eq with _ eq
    obtain ⟨fields, -, rest⟩ := fieldChars_cancel (.inl rfl) fields fields' eq
    exact ⟨congrArg ('{' :: ·) fields, rest⟩

theorem itemChars_cancel {x y gap : List Char} (short : gap = [] ∨ gap = [',']) : ∀ items items' : List Json,
    itemChars gap items ++ x = itemChars gap items' ++ y →
    itemChars gap items = itemChars gap items' ∧ List.Forall₂ (fun v w => chars v = chars w) items items' ∧ x = y
  | [], [], eq => ⟨rfl, .nil, List.append_cancel_left eq⟩
  | [], w :: rest', eq => by
    rcases short with rfl | rfl
    · rw [itemChars, itemChars, List.nil_append, List.append_assoc] at eq
      exact (close_ne_chars _ _ _ eq).elim
    · simp [itemChars] at eq
  | v :: rest, [], eq => by
    rcases short with rfl | rfl
    · rw [itemChars, itemChars, List.nil_append, List.append_assoc] at eq
      exact (close_ne_chars _ _ _ eq.symm).elim
    · simp [itemChars] at eq
  | v :: rest, w :: rest', eq => by
    rw [itemChars, itemChars, List.append_assoc, List.append_assoc, List.append_assoc, List.append_assoc] at eq
    obtain ⟨value, eq⟩ := chars_cancel (ends_itemChars _ _) (ends_itemChars _ _) v w (List.append_cancel_left eq)
    obtain ⟨items, all, rest⟩ := itemChars_cancel (.inr rfl) rest rest' eq
    exact ⟨by rw [itemChars, itemChars, value, items], .cons value all, rest⟩

theorem fieldChars_cancel {x y gap : List Char} (short : gap = [] ∨ gap = [',']) :
    ∀ fields fields' : List (String × Json), fieldChars gap fields ++ x = fieldChars gap fields' ++ y →
    fieldChars gap fields = fieldChars gap fields' ∧
      List.Forall₂ (fun f g => f.1 = g.1 ∧ chars f.2 = chars g.2) fields fields' ∧ x = y
  | [], [], eq => ⟨rfl, .nil, List.append_cancel_left eq⟩
  | [], f :: rest', eq => by
    rcases short with rfl | rfl <;> simp [fieldChars, quotedChars] at eq
  | f :: rest, [], eq => by
    rcases short with rfl | rfl <;> simp [fieldChars, quotedChars] at eq
  | (name, v) :: rest, (name', w) :: rest', eq => by
    rw [fieldChars, fieldChars, List.append_assoc, List.append_assoc, List.append_assoc, List.append_assoc] at eq
    obtain ⟨rfl, behind⟩ := quotedChars_cancel (List.append_cancel_left eq)
    injection behind with _ behind
    rw [List.append_eq, List.append_eq, List.append_assoc, List.append_assoc] at behind
    obtain ⟨value, behind⟩ := chars_cancel (ends_fieldChars _ _) (ends_fieldChars _ _) v w behind
    obtain ⟨fields, all, rest⟩ := fieldChars_cancel (.inr rfl) rest rest' behind
    exact ⟨by rw [fieldChars, fieldChars, value, fields], .cons ⟨rfl, value⟩ all, rest⟩

end

/-- **The text of an array** tells the texts of its items. -/
theorem chars_array {items items' : List Json} (eq : chars (.array items) = chars (.array items')) :
    List.Forall₂ (fun v w => chars v = chars w) items items' := by
  injection eq with _ eq
  exact (itemChars_cancel (x := []) (y := []) (.inl rfl) items items' (by rw [eq])).2.1

/-- **The text of an object** tells the names of its fields and the texts of their values. -/
theorem chars_object {fields fields' : List (String × Json)} (eq : chars (.object fields) = chars (.object fields')) :
    List.Forall₂ (fun f g => f.1 = g.1 ∧ chars f.2 = chars g.2) fields fields' := by
  injection eq with _ eq
  exact (fieldChars_cancel (x := []) (y := []) (.inl rfl) fields fields' (by rw [eq])).2.1

theorem chars_string {s t : String} (eq : chars (.string s) = chars (.string t)) : s = t :=
  (quotedChars_cancel (x := []) (y := []) (congrArg (· ++ []) eq)).1

end ResponseCache.Json
