import ResponseCache.Gzip.Member
import ResponseCache.Proofs.Gzip.Codes
import ResponseCache.Proofs.Gzip.Tokens
import ResponseCache.Proofs.Bytes

/-!
# What was compressed is read back

The reader of a block follows the tokens that its writer chose (`readTokens_bits`), so inflating gives the data back
and stops right behind them (`inflate_deflate`), and so does the reader of members (`decompress_compress`), whatever
follows.
-/

namespace ResponseCache.Gzip

open Bits (Holds)

variable {r : Bits} {bits : List Bool}

theorem length_fixedWord_pos (symbol : Nat) : 0 < (fixedWord symbol).length := by
  have pos : ∀ value width, 0 < (highFirst value (width + 1)).length := fun value width => by
    rw [highFirst, List.length_reverse, length_lowFirst]
    exact Nat.zero_lt_succ width
  unfold fixedWord
  split
  · exact pos _ 7
  · split
    · exact pos _ 8
    · split
      · exact pos _ 6
      · exact pos _ 7

/-! ## Tokens -/

theorem readToken_literal {b : UInt8} (h : Holds r (Token.bits (.literal b) ++ bits)) :
    ∃ r', readToken fixedTree fixedDistanceTree r = .ok (some (.literal b), r') ∧ Holds r' bits := by
  have small : b.toNat < 256 := b.toNat_lt
  obtain ⟨r', decoded, h'⟩ := h.decode (walk_fixedWord (Nat.lt_trans small (by decide)))
  refine ⟨r', ?_, h'⟩
  simp only [readToken, decoded, small, if_true, Nat.toUInt8_eq, UInt8.ofNat_toNat]

theorem readToken_copy {length distance : Nat} (long : 3 ≤ length) (short : length ≤ maxCopy) (pos : 1 ≤ distance)
    (near : distance ≤ maxDistance) (h : Holds r (Token.bits (.copy length distance) ++ bits)) :
    ∃ r', readToken fixedTree fixedDistanceTree r = .ok (some (.copy length distance), r') ∧ Holds r' bits := by
  obtain ⟨index, least, extra, found, here, le, lt⟩ := Ranges.find_spec lengthRanges_cover
    (fun r mem => by cases mem; exact long) (show length < 259 from Nat.lt_succ_of_le short)
  obtain ⟨index', least', extra', found', here', le', lt'⟩ := Ranges.find_spec distanceRanges_cover
    (fun r mem => by cases mem; exact pos) (show distance < 32769 from Nat.lt_succ_of_le near)
  have index_lt : index < 29 := (List.getElem?_eq_some_iff.1 here).1
  have index_lt' : index' < 30 := (List.getElem?_eq_some_iff.1 here').1
  simp only [Token.bits, rangeBits, found, found', List.append_assoc] at h
  obtain ⟨r₁, decoded, h₁⟩ := h.decode (walk_fixedWord (show 257 + index < 288 by omega))
  obtain ⟨r₂, ranged, h₂⟩ := h₁.readRange here le lt
  obtain ⟨r₃, decoded', h₃⟩ := h₂.decode (walk_fixedDistanceWord (show index' < 32 by omega))
  obtain ⟨r₄, ranged', h₄⟩ := h₃.readRange here' le' lt'
  refine ⟨r₄, ?_, h₄⟩
  have literal : ¬ 257 + index < 256 := by omega
  have endOfBlock : 257 + index ≠ endOfBlock := by
    rw [Gzip.endOfBlock]
    omega
  simp only [readToken, decoded, if_neg literal, if_neg endOfBlock, Nat.add_sub_cancel_left, ranged, decoded', ranged']

theorem readToken_end (h : Holds r (fixedWord endOfBlock ++ bits)) :
    ∃ r', readToken fixedTree fixedDistanceTree r = .ok (none, r') ∧ Holds r' bits := by
  obtain ⟨r', decoded, h'⟩ := h.decode (walk_fixedWord (show endOfBlock < 288 by decide))
  exact ⟨r', by simp only [readToken, decoded]; rfl, h'⟩

/-- **A block** is read token by token, and its end. -/
theorem readTokens_bits {data : List UInt8} {i : Nat} {tokens : List Token} (covers : Covers data i tokens) :
    ∀ (out : Array UInt8) {r : Bits} {fuel : Nat}, tokens.length < fuel →
      Holds r (tokens.flatMap Token.bits ++ (fixedWord endOfBlock ++ bits)) →
      ∃ r', readTokens fixedTree fixedDistanceTree out r fuel = .ok (tokens.foldl Token.apply out, r') ∧
        Holds r' bits := by
  induction covers with
  | done =>
    intro out r fuel lt h
    obtain ⟨fuel, rfl⟩ := Nat.exists_eq_add_one_of_ne_zero (Nat.ne_of_gt lt)
    obtain ⟨r', read, h'⟩ := readToken_end h
    exact ⟨r', by simp only [readTokens, read, List.foldl_nil], h'⟩
  | @literal _ b _ _ _ ih =>
    intro out r fuel lt h
    obtain ⟨fuel, rfl⟩ := Nat.exists_eq_add_one_of_ne_zero (Nat.ne_of_gt (Nat.zero_lt_of_lt lt))
    rw [List.flatMap_cons, List.append_assoc] at h
    obtain ⟨r₁, read, h₁⟩ := readToken_literal h
    obtain ⟨r₂, reads, h₂⟩ := ih (Token.apply out (.literal b)) (Nat.lt_of_succ_lt_succ lt) h₁
    exact ⟨r₂, by simp only [readTokens, read, reads, List.foldl_cons], h₂⟩
  | @copy _ length distance _ long short pos near _ _ _ ih =>
    intro out r fuel lt h
    obtain ⟨fuel, rfl⟩ := Nat.exists_eq_add_one_of_ne_zero (Nat.ne_of_gt (Nat.zero_lt_of_lt lt))
    rw [List.flatMap_cons, List.append_assoc] at h
    obtain ⟨r₁, read, h₁⟩ := readToken_copy long short pos near h
    obtain ⟨r₂, reads, h₂⟩ := ih (Token.apply out (.copy length distance)) (Nat.lt_of_succ_lt_succ lt) h₁
    exact ⟨r₂, by simp only [readTokens, read, reads, List.foldl_cons], h₂⟩

theorem length_le_bits (tokens : List Token) : tokens.length ≤ (tokens.flatMap Token.bits).length := by
  induction tokens with
  | nil => exact Nat.le_refl 0
  | cons token tokens ih =>
    have pos : 0 < token.bits.length := by
      cases token with
      | literal b => exact length_fixedWord_pos _
      | copy length distance =>
        simp only [Token.bits, rangeBits, List.length_append]
        have := length_fixedWord_pos (257 + (lengthRanges.find length).1)
        omega
    rw [List.flatMap_cons, List.length_append, List.length_cons]
    omega

/-! ## Blocks and members -/

/-- **Deflated data** inflate to what they were, and what follows them is left. -/
theorem inflate_deflate (data : ByteArray) (rest : List UInt8) :
    inflate (deflate data ++ rest) = .ok (data.data, rest) := by
  obtain ⟨zeros, lt, packed⟩ := bits_of_pack [] (blockBits (tokenize data))
  have covers := tokenize_covers data
  -- the block ends before the zeros that fill up its last byte
  have holds : Holds (.ofBytes (deflate data ++ rest)) (lowFirst 1 1 ++ (lowFirst 1 2 ++
      ((tokenize data).flatMap Token.bits ++ (fixedWord endOfBlock ++
        (List.replicate zeros false ++ rest.flatMap byteBits))))) := by
    have written : Holds _ _ := .ofBytes (deflate data ++ rest)
    have bits : (deflate data).flatMap byteBits = _ := packed
    rw [List.flatMap_append, bits] at written
    simpa [blockBits, lowFirst] using written
  have enough : (tokenize data).length < 8 * (deflate data ++ rest).length := by
    have size := congrArg List.length packed
    have le := length_le_bits (tokenize data)
    rw [length_bitsOfBytes, ← deflate] at size
    simp only [blockBits, List.reverse_nil, List.flatMap_nil, List.nil_append, List.length_append, List.length_cons,
      List.length_replicate] at size
    rw [List.length_append]
    omega
  obtain ⟨fuel, hfuel⟩ := Nat.exists_eq_add_one_of_ne_zero (Nat.ne_of_gt (Nat.zero_lt_of_lt enough))
  obtain ⟨r₁, last, h₁⟩ := holds.read (by decide)
  obtain ⟨r₂, kind, h₂⟩ := h₁.read (by decide)
  obtain ⟨r₃, block, h₃⟩ := readTokens_bits covers #[] enough h₂
  have written : (tokenize data).foldl Token.apply #[] = data.data := Array.toList_inj.1 (covers.write rfl)
  have left : r₃.bytes = rest := h₃.bytes_eq (by rwa [List.length_replicate])
  rw [written] at block
  simp only [inflate]
  rw [hfuel] at block ⊢
  simp only [readBlocks, last, kind, readBlock, block, if_true, left]

theorem takeBytes_append {taken : List UInt8} {n : Nat} (length : taken.length = n) (rest : List UInt8) :
    takeBytes n (taken ++ rest) = .ok (taken, rest) := by
  subst length
  simp [takeBytes]

theorem readHeader_header (rest : List UInt8) : readHeader (header ++ rest) = .ok rest := by
  have fixed := takeBytes_append (show header.length = 10 from rfl) rest
  have flags : header[3]?.getD 0 = 0 := rfl
  have magic : header.take 3 = [0x1F, 0x8B, 8] := rfl
  simp [readHeader, fixed, flags, magic, readIf, bind, Except.bind, pure, Except.pure]

/-- **A member is read back**, and what follows it is ignored. -/
theorem decompress_compress (content rest : ByteArray) : decompress (compress content ++ rest) = .ok content := by
  have bytes : (compress content ++ rest).toList =
      header ++ (deflate content ++ (trailer content.toList ++ rest.toList)) := by
    simp [Bytes.toList_eq_data, compress]
  have inflated : (inflate (deflate content ++ (trailer content.toList ++ rest.toList))).mapError Error.data =
      .ok (content.data, trailer content.toList ++ rest.toList) := by
    rw [inflate_deflate]
    rfl
  have sums := takeBytes_append (show (trailer content.toList).length = 8 from rfl) rest.toList
  have same : content.data.toList = content.toList := (Bytes.toList_eq_data content).symm
  simp only [decompress, bytes, readHeader_header, inflated, sums, same, bind, Except.bind, pure, Except.pure,
    ne_eq, not_true, if_false]

end ResponseCache.Gzip
