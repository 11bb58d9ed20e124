import ResponseCache.Proofs.Gzip.Extent
import ResponseCache.Proofs.Packing

/-!
# Packed bodies are whole or refused

A member is read in three parts, each of which ends where it ends whatever follows: the header (`readHeader_takes`),
the deflate data (`inflate_takes`) and the trailer. Data that can be read are those whose trailer has the checksum and
the length of what was inflated (`decompress_eq_ok_iff`). So a member that was cut off could not be completed to the
one it was cut from (`not_decompress_extract`), and one with another trailer does not match its own data
(`not_decompress_altered`): both are refused.
-/

namespace ResponseCache

namespace Gzip

/-! ## The header -/

section Header

variable {bytes rest : List UInt8}

theorem byte_takes (b : UInt8) (rest : List UInt8) : Takes (fun bytes rest => bytes = b :: rest) (b :: rest) rest :=
  ⟨[b], rfl, fun _ => rfl⟩

theorem takeBytes_eq_ok {n : Nat} {taken : List UInt8} (h : takeBytes n bytes = .ok (taken, rest)) :
    bytes = taken ++ rest ∧ taken.length = n := by
  unfold takeBytes at h
  dsimp only at h
  split at h
  · next whole =>
    cases h
    exact ⟨(List.take_append_drop n bytes).symm, whole⟩
  · cases h

theorem takeBytes_takes {n : Nat} {taken : List UInt8} (h : takeBytes n bytes = .ok (taken, rest)) :
    Takes (fun bytes rest => takeBytes n bytes = .ok (taken, rest)) bytes rest := by
  obtain ⟨split, whole⟩ := takeBytes_eq_ok h
  exact ⟨taken, split, takeBytes_append whole⟩

theorem untilNul_takes {text : List UInt8} : ∀ {bytes done : List UInt8} {room : Nat},
    untilNul done room bytes = .ok (text, rest) →
    Takes (fun bytes rest => untilNul done room bytes = .ok (text, rest)) bytes rest
  | [], _, _, h => nomatch h
  | b :: bytes, done, room, h => by
    unfold untilNul at h
    split at h
    · next ends =>
      cases h
      refine (byte_takes b _).mono ?_
      rintro _ rest rfl
      simp only [untilNul, ends, if_true]
    · next goes =>
      split at h
      · cases h
      · next room =>
        refine ((byte_takes b bytes).seq (untilNul_takes h)).mono ?_
        rintro _ rest ⟨bytes', rfl, others⟩
        simp only [untilNul, goes, if_false, others]

theorem readExtra_takes {extra : List UInt8} (h : readExtra bytes = .ok (extra, rest)) :
    Takes (fun bytes rest => readExtra bytes = .ok (extra, rest)) bytes rest := by
  unfold readExtra at h
  obtain ⟨⟨length, bytes₁⟩, two, h⟩ := bind_eq_ok.1 h
  obtain ⟨⟨field, bytes₂⟩, others, h⟩ := bind_eq_ok.1 h
  cases h
  refine ((takeBytes_takes two).seq (takeBytes_takes others)).mono ?_
  rintro bytes rest ⟨bytes', two, others⟩
  simp only [readExtra, bind, Except.bind, pure, Except.pure, two, others]

theorem readText_takes {text : List UInt8} (h : readText bytes = .ok (text, rest)) :
    Takes (fun bytes rest => readText bytes = .ok (text, rest)) bytes rest := by
  unfold readText at h
  obtain ⟨⟨text, bytes₁⟩, read, h⟩ := bind_eq_ok.1 h
  cases h
  refine (untilNul_takes read).mono ?_
  intro bytes rest read
  simp only [readText, bind, Except.bind, pure, Except.pure, read]

theorem readIf_takes {flags bit : UInt8} {read : List UInt8 → Except Error (List UInt8 × List UInt8)}
    {field : List UInt8} (takes : ∀ {bytes rest field}, read bytes = .ok (field, rest) →
      Takes (fun bytes rest => read bytes = .ok (field, rest)) bytes rest)
    (h : readIf flags bit read bytes = .ok (field, rest)) :
    Takes (fun bytes rest => readIf flags bit read bytes = .ok (field, rest)) bytes rest := by
  by_cases set : flags &&& bit ≠ 0
  · have eq : ∀ bytes, readIf flags bit read bytes = read bytes := fun _ => if_pos set
    rw [eq] at h
    exact (takes h).mono fun bytes rest run => (eq bytes).trans run
  · have eq : ∀ bytes, readIf flags bit read bytes = .ok ([], bytes) := fun _ => if_neg set
    rw [eq] at h
    cases h
    exact .nothing eq

/-- **The header** is taken whole, and what follows it is not looked at. -/
theorem readHeader_takes (h : readHeader bytes = .ok rest) :
    Takes (fun bytes rest => readHeader bytes = .ok rest) bytes rest := by
  unfold readHeader at h
  obtain ⟨⟨fixed, bytes₁⟩, ten, h⟩ := bind_eq_ok.1 h
  obtain ⟨known, h⟩ := refuse_eq_ok.1 h
  obtain ⟨⟨extra, bytes₂⟩, readExtra, h⟩ := bind_eq_ok.1 h
  obtain ⟨⟨name, bytes₃⟩, readName, h⟩ := bind_eq_ok.1 h
  obtain ⟨⟨comment, bytes₄⟩, readComment, h⟩ := bind_eq_ok.1 h
  obtain ⟨⟨sum, bytes₅⟩, readSum, h⟩ := bind_eq_ok.1 h
  obtain ⟨same, h⟩ := refuse_eq_ok.1 h
  cases h
  have run := (takeBytes_takes ten).seq ((readIf_takes readExtra_takes readExtra).seq
    ((readIf_takes readText_takes readName).seq ((readIf_takes readText_takes readComment).seq
      (readIf_takes takeBytes_takes readSum))))
  refine run.mono ?_
  rintro bytes rest ⟨_, ten, _, readExtra, _, readName, _, readComment, readSum⟩
  simp only [readHeader, bind, Except.bind, pure, Except.pure, ten, known, readExtra, readName, readComment, readSum,
    same, if_false]

end Header

/-! ## Members -/

theorem mapError_eq_ok {ε ε' α : Type} {f : ε → ε'} {x : Except ε α} {a : α} : x.mapError f = .ok a ↔ x = .ok a := by
  cases x with
  | error e => exact iff_of_false nofun nofun
  | ok b =>
    constructor
    · intro h
      cases h
      rfl
    · intro h
      cases h
      rfl

/-- **What can be read** is a header, deflate data, and a trailer that matches what they inflate to. -/
theorem decompress_eq_ok_iff {data out : ByteArray} : decompress data = .ok out ↔
    ∃ rest left more, readHeader data.toList = .ok rest ∧ inflate rest = .ok (out.data, left) ∧
      left = trailer out.toList ++ more := by
  obtain ⟨out⟩ := out
  have list : ByteArray.toList ⟨out⟩ = out.toList := Bytes.toList_eq_data _
  rw [list]
  constructor
  · intro h
    unfold decompress at h
    obtain ⟨rest, head, h⟩ := bind_eq_ok.1 h
    obtain ⟨⟨out, left⟩, inflated, h⟩ := bind_eq_ok.1 h
    obtain ⟨⟨sums, more⟩, eight, h⟩ := bind_eq_ok.1 h
    obtain ⟨same, h⟩ := refuse_eq_ok.1 h
    cases h
    refine ⟨rest, left, more, head, mapError_eq_ok.1 inflated, ?_⟩
    rw [← Decidable.not_not.1 same]
    exact (takeBytes_eq_ok eight).1
  · rintro ⟨rest, left, more, head, inflated, rfl⟩
    have sums := takeBytes_append (show (trailer out.toList).length = 8 from rfl) more
    simp only [decompress, bind, Except.bind, pure, Except.pure, head, inflated, Except.mapError, sums, ne_eq,
      not_true, if_false]

/-- A member up to its trailer. -/
def opening (content : ByteArray) : List UInt8 := header ++ deflate content

theorem toList_compress (content : ByteArray) :
    (compress content).toList = opening content ++ trailer content.toList := by
  rw [Bytes.toList_eq_data, opening, List.append_assoc]
  rfl

theorem length_trailer (bytes : List UInt8) : (trailer bytes).length = 8 := rfl

theorem size_compress (content : ByteArray) : (compress content).size = (opening content).length + 8 := by
  rw [← Bytes.length_toList, toList_compress, List.length_append, length_trailer]

theorem readHeader_opening (content : ByteArray) (rest : List UInt8) :
    readHeader (opening content ++ rest) = .ok (deflate content ++ rest) := by
  rw [opening, List.append_assoc, readHeader_header]

/-- **A member that was cut off** is refused: with the rest of it behind, more than a trailer would be left. -/
theorem not_decompress_extract {content out : ByteArray} {n : Nat} (short : n < (compress content).size) :
    decompress ((compress content).extract 0 n) ≠ .ok out := by
  intro h
  obtain ⟨rest, left, more, head, inflated, rfl⟩ := decompress_eq_ok_iff.1 h
  rw [Bytes.toList_extract] at head
  have whole := (readHeader_takes head).append ((compress content).toList.drop n)
  rw [List.take_append_drop, toList_compress, readHeader_opening, ← toList_compress] at whole
  have inflates := (inflate_takes inflated).append ((compress content).toList.drop n)
  rw [← Except.ok.inj whole, inflate_deflate] at inflates
  have lengths := congrArg List.length (Prod.mk.inj (Except.ok.inj inflates)).2
  simp only [List.length_append, length_trailer, List.length_drop, Bytes.length_toList] at lengths
  omega

/-- Data that begin as a member does are read as its content, if at all, and then its trailer follows. -/
theorem decompress_of_opening {content data out : ByteArray} {left : List UInt8}
    (begins : data.toList = opening content ++ left) (h : decompress data = .ok out) :
    ∃ more, left = trailer content.toList ++ more := by
  obtain ⟨rest, left', more, head, inflated, trails⟩ := decompress_eq_ok_iff.1 h
  rw [begins, readHeader_opening] at head
  rw [← Except.ok.inj head, inflate_deflate] at inflated
  obtain ⟨same, rfl⟩ := Prod.mk.inj (Except.ok.inj inflated)
  obtain rfl : content = out := ByteArray.ext same
  exact ⟨more, trails⟩

/-- **A member with another trailer** is refused: its data are the same, and match the trailer that it had. -/
theorem not_decompress_altered {content data out : ByteArray} (size : data.size = (compress content).size)
    (same : data.extract 0 (data.size - 8) = (compress content).extract 0 (data.size - 8))
    (altered : data ≠ compress content) : decompress data ≠ .ok out := by
  intro h
  have place : data.size - 8 = (opening content).length := by
    rw [size, size_compress]
    exact Nat.add_sub_cancel ..
  have begins : data.toList = opening content ++ data.toList.drop (data.size - 8) := by
    have start := congrArg ByteArray.toList same
    rw [Bytes.toList_extract, Bytes.toList_extract, toList_compress, List.take_left' place.symm] at start
    rw [← start, List.take_append_drop]
  obtain ⟨more, trails⟩ := decompress_of_opening begins h
  -- there is room for nothing but the trailer
  have lengths := congrArg List.length trails
  rw [List.length_drop, Bytes.length_toList, List.length_append, length_trailer] at lengths
  have none : more = [] := List.length_eq_zero_iff.1 (by omega)
  rw [trails, none, List.append_nil, ← toList_compress] at begins
  exact altered (Bytes.toList_inj.1 begins)

/-- The bytes of a word stand for it. -/
theorem littleEndian_wordBytes (w : UInt32) : littleEndian (wordBytes w) = w.toNat := by
  have lt := w.toNat_lt
  simp only [littleEndian, wordBytes, List.foldr_cons, List.foldr_nil, UInt32.toNat_toUInt8, UInt32.toNat_shiftRight]
  simp
  omega

end Gzip

open Gzip

/-- Data that cannot be read are refused. -/
theorem unpack_refuses {data : ByteArray} (unreadable : ∀ out, decompress data ≠ .ok out) :
    ∃ reason, unpack data = .error (.compression reason) := by
  unfold unpack
  cases read : decompress data with
  | error e => exact ⟨e.message, rfl⟩
  | ok out => exact absurd read (unreadable out)

/-- **Packed bodies are whole.**

What was packed is unpacked to the same bytes, whatever stands behind it. What was cut off anywhere is refused.
Whatever data are unpacked, they begin with the header of a member and with deflate data, both of which end where they
end whatever follows, and behind them stand the checksum of what was unpacked and its length. So what was packed and
then given another trailer is refused. -/
theorem packed_intact :
    (∀ content more, unpack (compress content ++ more) = .ok content) ∧
    (∀ content n, n < (compress content).size →
      ∃ reason, unpack ((compress content).extract 0 n) = .error (.compression reason)) ∧
    (∀ data out, unpack data = .ok out → ∃ head deflated sums rest,
      data.toList = head ++ (deflated ++ (sums ++ rest)) ∧
      (∀ more, readHeader (head ++ more) = .ok more) ∧
      (∀ more, inflate (deflated ++ more) = .ok (out.data, more)) ∧
      sums.length = 8 ∧
      littleEndian (sums.take 4) = (crc32 out.toList).toNat ∧
      littleEndian (sums.drop 4) = out.size % 2 ^ 32) ∧
    ∀ content data, data.size = (compress content).size →
      data.extract 0 (data.size - 8) = (compress content).extract 0 (data.size - 8) → data ≠ compress content →
        ∃ reason, unpack data = .error (.compression reason) := by
  refine ⟨fun content more => ?_, fun content n short => ?_, fun data out h => ?_,
    fun content data size same altered => ?_⟩
  · exact mapError_eq_ok.2 (decompress_compress content more)
  · exact unpack_refuses fun out => not_decompress_extract short
  · obtain ⟨rest, left, more, head, inflated, rfl⟩ := decompress_eq_ok_iff.1 (mapError_eq_ok.1 h)
    obtain ⟨header, start, skips⟩ := readHeader_takes head
    obtain ⟨deflated, middle, gives⟩ := inflate_takes inflated
    refine ⟨header, deflated, trailer out.toList, more, by rw [start, middle], skips, gives, length_trailer _, ?_, ?_⟩
    · exact littleEndian_wordBytes (crc32 out.toList)
    · calc littleEndian ((trailer out.toList).drop 4)
          = out.toList.length.toUInt32.toNat := littleEndian_wordBytes _
        _ = out.size % 2 ^ 32 := by rw [Bytes.length_toList, Nat.toUInt32_eq, UInt32.toNat_ofNat']
  · exact unpack_refuses fun out => not_decompress_altered size same altered

/-- A byte in a stored block is unpacked; packed, it is refused if it is cut off after five bytes or if its trailer is
zeros. -/
theorem packed_intact_stored : ∃ content data altered : ByteArray,
    unpack data = .ok content ∧ (∃ head deflated sums rest, data.toList = head ++ (deflated ++ (sums ++ rest)) ∧
      inflate deflated = .ok (#[97], []) ∧ littleEndian (sums.take 4) = 0xE8B7BE43 ∧
      littleEndian (sums.drop 4) = 1) ∧
    5 < (compress content).size ∧ (∃ reason, unpack ((compress content).extract 0 5) = .error (.compression reason)) ∧
    altered.size = (compress content).size ∧
    altered.extract 0 (altered.size - 8) = (compress content).extract 0 (altered.size - 8) ∧
    altered ≠ compress content ∧ ∃ reason, unpack altered = .error (.compression reason) := by
  let content : ByteArray := ⟨#[97]⟩
  let data : ByteArray := ⟨(header ++ [1, 1, 0, 0xFE, 0xFF, 97, 0x43, 0xBE, 0xB7, 0xE8, 1, 0, 0, 0]).toArray⟩
  let altered : ByteArray := ⟨(opening content ++ List.replicate 8 0).toArray⟩
  have content_list : content.toList = [97] := Bytes.toList_eq_data _
  have data_list : data.toList = header ++ _ := Bytes.toList_eq_data _
  have altered_list : altered.toList = opening content ++ List.replicate 8 0 := Bytes.toList_eq_data _
  have sum : crc32 content.toList = 0xE8B7BE43 := by
    rw [content_list]
    decide +kernel
  have trails : trailer content.toList = [0x43, 0xBE, 0xB7, 0xE8, 1, 0, 0, 0] := by
    rw [trailer, sum, content_list]
    rfl
  have read : unpack data = .ok content := by
    refine mapError_eq_ok.2 (decompress_eq_ok_iff.2 ⟨_, _, [], data_list ▸ readHeader_header _, rfl, ?_⟩)
    rw [trails]
    rfl
  have short : 5 < (compress content).size := by
    rw [size_compress, opening, List.length_append]
    exact Nat.lt_of_lt_of_le (show 5 < 10 + 8 by decide) (by simp [header])
  have place : altered.size = (opening content).length + 8 := by
    rw [← Bytes.length_toList, altered_list, List.length_append]
    rfl
  have same : altered.extract 0 (altered.size - 8) = (compress content).extract 0 (altered.size - 8) := by
    rw [← Bytes.toList_inj, Bytes.toList_extract, Bytes.toList_extract, altered_list, toList_compress, place,
      Nat.add_sub_cancel, List.take_left, List.take_left]
  have other : altered ≠ compress content := by
    intro eq
    rw [← Bytes.toList_inj, altered_list, toList_compress, List.append_cancel_left_eq, trails] at eq
    exact absurd eq (by decide)
  have size : altered.size = (compress content).size := place.trans (size_compress content).symm
  obtain ⟨-, cut, parts, changed⟩ := packed_intact
  obtain ⟨head, deflated, sums, rest, split, -, inflates, -, checksum, length⟩ := parts data content read
  have inflated := inflates []
  rw [List.append_nil] at inflated
  rw [sum] at checksum
  exact ⟨content, data, altered, read, ⟨head, deflated, sums, rest, split, inflated, checksum, length⟩, short,
    cut content 5 short, size, same, other, changed content altered size same other⟩

end ResponseCache
