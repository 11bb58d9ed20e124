import ResponseCache.Gzip.Token

/-!
# Tokens write the data they were found in

`Covers` says that tokens write some data from a place on: each literal is the byte that stands there, and each copy
agrees with the data byte by byte. The tokens of `tokenize` do (`tokenize_covers`), whatever the memory of triples held,
and tokens that do write the data (`Covers.write`).
-/

namespace ResponseCache.Gzip

/-- The tokens write the data from a place on. -/
inductive Covers (data : List UInt8) : Nat → List Token → Prop
  | done {i : Nat} : data.length ≤ i → Covers data i []
  | literal {i : Nat} {b : UInt8} {tokens : List Token} : data[i]? = some b → Covers data (i + 1) tokens →
      Covers data i (.literal b :: tokens)
  | copy {i length distance : Nat} {tokens : List Token} : 3 ≤ length → length ≤ maxCopy → 1 ≤ distance →
      distance ≤ maxDistance → distance ≤ i →
      (∀ k < length, ∃ b, data[i - distance + k]? = some b ∧ data[i + k]? = some b) →
      Covers data (i + length) tokens → Covers data i (.copy length distance :: tokens)

/-! ## Finding tokens -/

theorem getElem?_data (data : ByteArray) (i : Nat) : data[i]? = data.data.toList[i]? := by
  rw [Array.getElem?_toList]
  by_cases h : i < data.size
  · rw [getElem?_pos data i h, getElem?_pos data.data i h]
    rfl
  · rw [getElem?_neg data i h, getElem?_neg data.data i h]

theorem agreement_spec (data : ByteArray) (i j : Nat) (fuel k : Nat) :
    k ≤ agreement data i j k fuel ∧ agreement data i j k fuel ≤ k + fuel ∧
      ∀ m, k ≤ m → m < agreement data i j k fuel → ∃ b, data[i + m]? = some b ∧ data[j + m]? = some b := by
  fun_induction agreement data i j k fuel with
  | case1 k => exact ⟨Nat.le_refl k, Nat.le_refl k, fun m le lt => absurd lt (Nat.not_lt.2 le)⟩
  | case2 k fuel b hj hi ih =>
    obtain ⟨le, ge, agree⟩ := ih
    refine ⟨Nat.le_of_succ_le le, by omega, fun m le' lt => ?_⟩
    rcases Nat.eq_or_lt_of_le le' with rfl | le'
    · exact ⟨b, hi, hj⟩
    · exact agree m le' lt
  | case3 k fuel a b _ _ ne => exact ⟨Nat.le_refl k, Nat.le_add_right k _, fun m le lt => absurd lt (Nat.not_lt.2 le)⟩
  | case4 k fuel no => exact ⟨Nat.le_refl k, Nat.le_add_right k _, fun m le lt => absurd lt (Nat.not_lt.2 le)⟩

/-- A copy that was found agrees with the data. -/
theorem copyAt?_spec {data : ByteArray} {i length distance : Nat} {j : Option Nat}
    (h : copyAt? data i j = some (length, distance)) :
    3 ≤ length ∧ length ≤ maxCopy ∧ 1 ≤ distance ∧ distance ≤ maxDistance ∧ distance ≤ i ∧
      ∀ k < length, ∃ b, data.data.toList[i - distance + k]? = some b ∧ data.data.toList[i + k]? = some b := by
  unfold copyAt? at h
  split at h
  · cases h
  · next j =>
    split at h
    · next near =>
      dsimp only at h
      split at h
      · next long =>
        cases h
        obtain ⟨-, le, agree⟩ := agreement_spec data j i maxCopy 0
        refine ⟨long, by omega, by omega, near.2, Nat.sub_le i j, fun k lt => ?_⟩
        obtain ⟨b, hj, hi⟩ := agree k (Nat.zero_le k) lt
        rw [getElem?_data] at hi hj
        rw [Nat.sub_sub_self (Nat.le_of_lt near.1)]
        exact ⟨b, hj, hi⟩
      · cases h
    · cases h

theorem tokenizeFrom_covers {data : ByteArray} {fuel : Nat} :
    ∀ {seen : Std.HashMap Nat Nat} {done : List Token} {i : Nat}, data.size ≤ i + fuel →
      ∃ tokens, tokenizeFrom data seen done i fuel = done.reverse ++ tokens ∧ Covers data.data.toList i tokens := by
  induction fuel with
  | zero =>
    intro seen done i le
    exact ⟨[], (List.append_nil _).symm, .done le⟩
  | succ fuel ih =>
    intro seen done i le
    rw [tokenizeFrom]
    split
    · next none =>
      rw [getElem?_data, List.getElem?_eq_none_iff] at none
      exact ⟨[], (List.append_nil _).symm, .done none⟩
    · next b here =>
      rw [getElem?_data] at here
      dsimp only
      split
      · next length distance found =>
        obtain ⟨long, short, pos, near, inside, agree⟩ := copyAt?_spec found
        obtain ⟨tokens, eq, covers⟩ := ih (show data.size ≤ i + length + fuel by omega)
        refine ⟨.copy length distance :: tokens, ?_, .copy long short pos near inside agree covers⟩
        rw [eq, List.reverse_cons, List.append_assoc]
        rfl
      · obtain ⟨tokens, eq, covers⟩ := ih (show data.size ≤ i + 1 + fuel by omega)
        refine ⟨.literal b :: tokens, ?_, .literal here covers⟩
        rw [eq, List.reverse_cons, List.append_assoc]
        rfl

theorem tokenize_covers (data : ByteArray) : Covers data.data.toList 0 (tokenize data) := by
  obtain ⟨tokens, eq, covers⟩ := @tokenizeFrom_covers data data.size ∅ [] 0 (Nat.le_add_left _ _)
  rw [tokenize, eq]
  exact covers

/-! ## Writing tokens -/

variable {data : List UInt8}

theorem byteBack_take {out : Array UInt8} {i distance : Nat} {b : UInt8} (written : out.toList = data.take i)
    (le : i ≤ data.length) (pos : 1 ≤ distance) (inside : distance ≤ i) (here : data[i - distance]? = some b) :
    byteBack out distance = b := by
  have size : out.size = i := by rw [← Array.length_toList, written, List.length_take, Nat.min_eq_left le]
  have found : out[i - distance]? = some b := by
    rw [← Array.getElem?_toList, written, List.getElem?_take_of_lt (by omega), here]
  rw [byteBack, size, if_pos inside, Array.getD_eq_getD_getElem?, found]
  rfl

theorem push_take {out : Array UInt8} {i : Nat} {b : UInt8} (written : out.toList = data.take i)
    (here : data[i]? = some b) :
    (out.push b).toList = data.take (i + 1) := by
  rw [Array.toList_push, written, List.take_add_one, here]
  rfl

/-- A copy writes the bytes that it agrees with. -/
theorem copyBytes_take {distance : Nat} (pos : 1 ≤ distance) : ∀ {length i : Nat} {out : Array UInt8},
    out.toList = data.take i → distance ≤ i →
    (∀ k < length, ∃ b, data[i - distance + k]? = some b ∧ data[i + k]? = some b) →
    (copyBytes out distance length).toList = data.take (i + length)
  | 0, _, _, written, _, _ => written
  | length + 1, i, out, written, inside, agree => by
    obtain ⟨b, back, here⟩ := agree 0 (Nat.zero_lt_succ length)
    have le : i ≤ data.length := Nat.le_of_lt (List.getElem?_eq_some_iff.1 here).1
    have more : ∀ k < length, ∃ b, data[i + 1 - distance + k]? = some b ∧ data[i + 1 + k]? = some b := fun k lt => by
      obtain ⟨b, back, here⟩ := agree (k + 1) (Nat.succ_lt_succ lt)
      refine ⟨b, ?_, ?_⟩
      · rw [← back]
        congr 1
        omega
      · rw [← here]
        congr 1
        omega
    rw [copyBytes, byteBack_take written le pos inside back]
    have := copyBytes_take pos (push_take written here) (Nat.le_succ_of_le inside) more
    rw [this, Nat.add_right_comm]
    rfl

/-- **Tokens that cover the data write it.** -/
theorem Covers.write {i : Nat} {tokens : List Token} (covers : Covers data i tokens) :
    ∀ {out : Array UInt8}, out.toList = data.take i → (tokens.foldl Token.apply out).toList = data := by
  induction covers with
  | done le =>
    intro out written
    rw [List.foldl_nil, written, List.take_of_length_le le]
  | literal here _ ih =>
    intro out written
    exact ih (push_take written here)
  | copy _ _ pos _ inside agree _ ih =>
    intro out written
    exact ih (copyBytes_take pos written inside agree)

end ResponseCache.Gzip
