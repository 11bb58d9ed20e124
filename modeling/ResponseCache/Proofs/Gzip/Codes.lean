import ResponseCache.Gzip.Deflate
import ResponseCache.Gzip.Inflate
import ResponseCache.Proofs.Gzip.Bits

/-!
# Words and ranges are read as they were written

The word of every symbol leads to its leaf in the tree of the fixed code (`walk_fixedWord`, `walk_fixedDistanceWord`).
The ranges of an alphabet follow each other without a gap, so the extra bits of a value tell its place in the range that
was found for it (`Bits.Holds.readRange`).
-/

namespace ResponseCache.Gzip

namespace Tree

/-- The symbol that a word leads to. -/
def walk : Tree → List Bool → Option Nat
  | leaf symbol, [] => some symbol
  | node zero one, b :: word => if b then one.walk word else zero.walk word
  | _, _ => none

end Tree

theorem walk_fixedWord {symbol : Nat} (lt : symbol < 288) : fixedTree.walk (fixedWord symbol) = some symbol := by
  have all : ∀ s : Fin 288, fixedTree.walk (fixedWord s) = some s.val := by decide +kernel
  exact all ⟨symbol, lt⟩

theorem walk_fixedDistanceWord {symbol : Nat} (lt : symbol < 32) :
    fixedDistanceTree.walk (fixedDistanceWord symbol) = some symbol := by
  have all : ∀ s : Fin 32, fixedDistanceTree.walk (fixedDistanceWord s) = some s.val := by decide +kernel
  exact all ⟨symbol, lt⟩

/-! ## Ranges -/

/-- Each range starts where the one before it ends, or earlier, and the last one reaches up to `bound`. -/
def Ranges.Covers (bound : Nat) : Ranges → Prop
  | [] => False
  | [(least, extra)] => bound ≤ least + 2 ^ extra
  | (least, extra) :: (least', extra') :: rest =>
    least' ≤ least + 2 ^ extra ∧ Ranges.Covers bound ((least', extra') :: rest)

/-- The range that is found for a value holds it. -/
theorem Ranges.find_spec {bound value : Nat} : ∀ {ranges : Ranges}, Ranges.Covers bound ranges →
    (∀ r ∈ ranges.head?, r.1 ≤ value) → value < bound →
    ∃ index least extra, ranges.find value = (index, least, extra) ∧ ranges[index]? = some (least, extra) ∧
      least ≤ value ∧ value - least < 2 ^ extra
  | [], covers, _, _ => covers.elim
  | [(least, extra)], covers, first, lt => by
    have le : least ≤ value := first _ rfl
    have covers : bound ≤ least + 2 ^ extra := covers
    refine ⟨0, least, extra, ?_, rfl, le, by omega⟩
    simp [Ranges.find, List.takeWhile, le]
  | (least, extra) :: (least', extra') :: rest, covers, first, lt => by
    have le : least ≤ value := first _ rfl
    obtain ⟨joined, covers⟩ := covers
    by_cases le' : least' ≤ value
    · obtain ⟨index, l, e, found, here, inside⟩ := Ranges.find_spec covers (fun r mem => by cases mem; exact le') lt
      refine ⟨index + 1, l, e, ?_, here, inside⟩
      simp only [Ranges.find, List.takeWhile_cons, le', decide_true, if_true, Prod.mk.injEq] at found
      simp only [Ranges.find, List.takeWhile_cons, le, le', decide_true, if_true, Prod.mk.injEq]
      refine ⟨?_, ?_⟩
      · rw [← found.1]
        simp
      · rw [List.getLastD_cons]
        exact found.2
    · refine ⟨0, least, extra, ?_, rfl, le, by omega⟩
      simp [Ranges.find, le, le']

theorem lengthRanges_cover : Ranges.Covers 259 lengthRanges := by
  simp [lengthRanges, Ranges.Covers]

theorem distanceRanges_cover : Ranges.Covers 32769 distanceRanges := by
  simp [distanceRanges, Ranges.Covers]

namespace Bits.Holds

variable {r : Bits} {bits : List Bool}

/-- A word is read as its symbol. -/
theorem decode {symbol : Nat} : ∀ {tree : Tree} {word : List Bool} {r : Bits}, tree.walk word = some symbol →
    Holds r (word ++ bits) → ∃ r', tree.decode r = .ok (symbol, r') ∧ Holds r' bits
  | .leaf _, [], r, walk, h => by
    cases walk
    exact ⟨r, rfl, h⟩
  | .node zero one, b :: word, r, walk, h => by
    obtain ⟨r₁, next, h₁⟩ := h.next
    simp only [Tree.decode, next]
    cases b with
    | true => exact decode (show one.walk word = some symbol from walk) h₁
    | false => exact decode (show zero.walk word = some symbol from walk) h₁
  | .empty, _, _, walk, _ => by simp [Tree.walk] at walk
  | .leaf _, _ :: _, _, walk, _ => by simp [Tree.walk] at walk
  | .node _ _, [], _, walk, _ => by simp [Tree.walk] at walk

theorem readRange {ranges : Ranges} {index least extra value : Nat} (here : ranges[index]? = some (least, extra))
    (le : least ≤ value) (lt : value - least < 2 ^ extra) (h : Holds r (lowFirst (value - least) extra ++ bits)) :
    ∃ r', Gzip.readRange ranges index r = .ok (value, r') ∧ Holds r' bits := by
  obtain ⟨r', read, h'⟩ := h.read lt
  refine ⟨r', ?_, h'⟩
  simp only [Gzip.readRange, here, read]
  rw [Nat.add_sub_cancel' le]

end Bits.Holds

end ResponseCache.Gzip
