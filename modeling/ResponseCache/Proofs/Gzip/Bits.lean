import Mathlib.Algebra.Group.Nat.Defs
import ResponseCache.Gzip.Bits

/-!
# Bits that were written are read again

`Bits.Holds` says which bits are left to read. Readers are followed bit by bit on what a writer put there, and where
whole bytes follow, the reader that has come so far stands right before them (`Bits.Holds.bytes_eq`). Packing fills up
the last byte with less than eight zeros (`bits_of_pack`).
-/

namespace ResponseCache.Gzip

theorem length_lowFirst : ∀ value width : Nat, (lowFirst value width).length = width
  | _, 0 => rfl
  | value, width + 1 => congrArg (· + 1) (length_lowFirst (value / 2) width)

theorem length_byteBits (b : UInt8) : (byteBits b).length = 8 := length_lowFirst b.toNat 8

theorem length_bitsOfBytes (bytes : List UInt8) : (bytes.flatMap byteBits).length = 8 * bytes.length := by
  induction bytes with
  | nil => rfl
  | cons b bytes ih =>
    rw [List.flatMap_cons, List.length_append, length_byteBits, ih, List.length_cons]
    omega

theorem toNat_mod_two (n : Nat) : (n % 2 == 1).toNat = n % 2 := by
  rcases Nat.mod_two_eq_zero_or_one n with h | h <;> rw [h] <;> rfl

/-- A number within its width is read from its bits. -/
theorem ofLowFirst_lowFirst {width : Nat} :
    ∀ {value : Nat}, value < 2 ^ width → ofLowFirst (lowFirst value width) = value := by
  induction width with
  | zero =>
    intro value lt
    exact (Nat.lt_one_iff.1 lt).symm
  | succ width ih =>
    intro value lt
    have half : value / 2 < 2 ^ width := by
      rw [Nat.pow_succ] at lt
      omega
    simp only [lowFirst, ofLowFirst]
    rw [ih half, toNat_mod_two]
    omega

/-- The bits of what bits stand for, with zeros to the width. -/
theorem lowFirst_ofLowFirst (bits : List Bool) (more : Nat) :
    lowFirst (ofLowFirst bits) (bits.length + more) = bits ++ List.replicate more false := by
  induction bits with
  | nil =>
    rw [List.length_nil, Nat.zero_add, List.nil_append]
    induction more with
    | zero => rfl
    | succ more ih => exact congrArg (false :: ·) ih
  | cons b bits ih =>
    rw [List.length_cons, Nat.succ_add, lowFirst, List.cons_append, ← ih]
    have low : (b.toNat + 2 * ofLowFirst bits) % 2 = b.toNat := by cases b <;> simp
    have high : (b.toNat + 2 * ofLowFirst bits) / 2 = ofLowFirst bits := by
      cases b
      · simp
      · simp only [Bool.toNat_true]
        omega
    rw [ofLowFirst, low, high]
    cases b <;> rfl

theorem ofLowFirst_lt (bits : List Bool) : ofLowFirst bits < 2 ^ bits.length := by
  induction bits with
  | nil => exact Nat.one_pos
  | cons b bits ih =>
    have : b.toNat ≤ 1 := Bool.toNat_le b
    rw [ofLowFirst, List.length_cons, Nat.pow_succ]
    omega

/-- A byte made of bits has them, with zeros behind them. -/
theorem byteBits_ofLowFirst {bits : List Bool} (le : bits.length ≤ 8) :
    byteBits (ofLowFirst bits).toUInt8 = bits ++ List.replicate (8 - bits.length) false := by
  have lt : ofLowFirst bits < 2 ^ 8 :=
    Nat.lt_of_lt_of_le (ofLowFirst_lt bits) (Nat.pow_le_pow_right (by decide) le)
  have : (ofLowFirst bits).toUInt8.toNat = ofLowFirst bits := by
    rw [Nat.toUInt8_eq, UInt8.toNat_ofNat']
    exact Nat.mod_eq_of_lt lt
  have bits_eq := lowFirst_ofLowFirst bits (8 - bits.length)
  rw [Nat.add_sub_cancel' le] at bits_eq
  rw [byteBits, this, bits_eq]

theorem byteBits_injective {a b : UInt8} (h : byteBits a = byteBits b) : a = b := by
  have := congrArg ofLowFirst h
  rw [byteBits, byteBits, ofLowFirst_lowFirst a.toNat_lt, ofLowFirst_lowFirst b.toNat_lt] at this
  exact UInt8.toNat_inj.1 this

theorem bitsOfBytes_injective : ∀ {a b : List UInt8}, a.flatMap byteBits = b.flatMap byteBits → a = b
  | [], [], _ => rfl
  | [], y :: b, h => by
    have := congrArg List.length h
    rw [length_bitsOfBytes, length_bitsOfBytes] at this
    simp at this
  | x :: a, [], h => by
    have := congrArg List.length h
    rw [length_bitsOfBytes, length_bitsOfBytes] at this
    simp at this
  | x :: a, y :: b, h => by
    rw [List.flatMap_cons, List.flatMap_cons] at h
    obtain ⟨head, rest⟩ := List.append_inj h ((length_byteBits x).trans (length_byteBits y).symm)
    rw [byteBits_injective head, bitsOfBytes_injective rest]

/-- **Packed bits**: first what was packed before, then the bits, then less than a byte of zeros. -/
theorem bits_of_pack (done : List UInt8) (bits : List Bool) :
    ∃ zeros, zeros < 8 ∧ (pack done bits).flatMap byteBits =
      done.reverse.flatMap byteBits ++ (bits ++ List.replicate zeros false) := by
  fun_induction pack done bits with
  | case1 done a b c d e f g h rest ih =>
    obtain ⟨zeros, lt, eq⟩ := ih
    refine ⟨zeros, lt, ?_⟩
    rw [eq, List.reverse_cons, List.flatMap_append, List.flatMap_singleton, byteBits_ofLowFirst (by simp)]
    simp
  | case2 done => exact ⟨0, by decide, by simp⟩
  | case3 done bits long short =>
    -- between one and seven bits are left
    have lt : bits.length < 8 := by
      refine Nat.lt_of_not_le fun le => ?_
      match bits, le with
      | a :: b :: c :: d :: e :: f :: g :: h :: rest, _ => exact long a b c d e f g h rest rfl
    have pos : 0 < bits.length := List.length_pos_iff.2 short
    refine ⟨8 - bits.length, by omega, ?_⟩
    rw [List.reverse_cons, List.flatMap_append, List.flatMap_singleton, byteBits_ofLowFirst (Nat.le_of_lt lt)]

namespace Bits

/-- The bits left to read, at most seven of them from a byte that was opened. -/
structure Holds (r : Bits) (bits : List Bool) : Prop where
  opened_lt : r.opened.length < 8
  toBits : r.toBits = bits

namespace Holds

variable {r : Bits} {bits : List Bool}

theorem ofBytes (bytes : List UInt8) : Holds (ofBytes bytes) (bytes.flatMap byteBits) := ⟨Nat.zero_lt_succ 7, rfl⟩

theorem next {b : Bool} (h : Holds r (b :: bits)) : ∃ r', r.next? = some (b, r') ∧ Holds r' bits := by
  have view := toBits_of_next? (r := r)
  rw [h.toBits] at view
  cases eq : r.next? with
  | none =>
    rw [eq] at view
    cases view
  | some p =>
    obtain ⟨b', r'⟩ := p
    rw [eq] at view
    injection view with head rest
    subst head
    refine ⟨r', rfl, ?_, rest.symm⟩
    have lt := h.opened_lt
    unfold next? at eq
    split at eq
    · next opened here =>
      cases eq
      rw [here, List.length_cons] at lt
      exact Nat.lt_of_succ_lt lt
    · next x _ _ _ =>
      split at eq
      · next opened here =>
        cases eq
        have := congrArg List.length here
        rw [length_byteBits, List.length_cons] at this
        show opened.length < 8
        omega
      · cases eq
    · cases eq

/-- A number is read as it was written. -/
theorem read {width : Nat} : ∀ {value : Nat} {r : Bits}, value < 2 ^ width → Holds r (lowFirst value width ++ bits) →
    ∃ r', r.read width = .ok (value, r') ∧ Holds r' bits := by
  induction width with
  | zero =>
    intro value r lt h
    obtain rfl := Nat.lt_one_iff.1 lt
    exact ⟨r, rfl, h⟩
  | succ width ih =>
    intro value r lt h
    obtain ⟨r₁, first, h₁⟩ := h.next
    have half : value / 2 < 2 ^ width := by
      rw [Nat.pow_succ] at lt
      omega
    obtain ⟨r₂, others, h₂⟩ := ih half h₁
    refine ⟨r₂, ?_, h₂⟩
    simp only [Bits.read, first, others, toNat_mod_two]
    rw [Nat.mod_add_div]

/-- **Whole bytes** behind less than a byte of bits are the bytes left to read. -/
theorem bytes_eq {pad : List Bool} {bytes : List UInt8} (lt : pad.length < 8)
    (h : Holds r (pad ++ bytes.flatMap byteBits)) : r.bytes = bytes := by
  have opened_lt := h.opened_lt
  have toBits := h.toBits
  rw [Bits.toBits] at toBits
  have lengths := congrArg List.length toBits
  rw [List.length_append, List.length_append, length_bitsOfBytes, length_bitsOfBytes] at lengths
  exact bitsOfBytes_injective (List.append_inj toBits (by omega)).2

end Holds

end Bits

end ResponseCache.Gzip
