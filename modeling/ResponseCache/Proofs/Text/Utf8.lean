import ResponseCache.Proofs.Bytes
import ResponseCache.Text.Utf8

/-!
# Texts and their bytes

Bytes are read as the text that they encode, if they encode one (`decode?_eq_some_iff`); ASCII bytes always do. Reading
with replacements gives the same text of such bytes (`decodeLossy_encode`).
-/

namespace ResponseCache.Text

/-- **Bytes are read** as the text that they encode. -/
theorem decode?_eq_some_iff {bytes : ByteArray} {text : String} : decode? bytes = some text ↔ encode text = bytes := by
  unfold decode? String.fromUTF8?
  constructor
  · intro read
    split at read
    · cases read
      rfl
    · cases read
  · rintro rfl
    exact dif_pos text.isValidUTF8

theorem decode?_encode (text : String) : decode? (encode text) = some text := decode?_eq_some_iff.2 rfl

theorem encode_inj {s t : String} : encode s = encode t ↔ s = t :=
  ⟨fun eq => Option.some.inj ((decode?_encode s).symm.trans (eq ▸ decode?_encode t)), congrArg _⟩

theorem encode_toList (text : String) : (encode text).toList = text.toList.flatMap String.utf8EncodeChar := by
  have : encode text = (text.toList.flatMap String.utf8EncodeChar).toByteArray := String.utf8Encode_toList.symm
  rw [this, Bytes.toList_toByteArray]

/-- A character that an ASCII byte stands for. -/
theorem utf8EncodeChar_ofUInt8 {b : UInt8} (ascii : b < 128) : String.utf8EncodeChar (Char.ofUInt8 b) = [b] := by
  have value : (Char.ofUInt8 b).val.toNat = b.toNat := UInt8.toNat_toUInt32 b
  have small : b.toNat ≤ 127 := Nat.le_of_lt_succ (UInt8.lt_iff_toNat_lt.1 ascii)
  rw [String.utf8EncodeChar, value, if_pos small, UInt8.ofNat_toNat]

/-- ASCII bytes are a text. -/
theorem decode?_of_ascii {bytes : ByteArray} (ascii : ∀ b ∈ bytes.toList, b < 128) :
    ∃ text, decode? bytes = some text := by
  refine ⟨String.ofList (bytes.toList.map Char.ofUInt8), decode?_eq_some_iff.2 (Bytes.toList_inj.1 ?_)⟩
  rw [encode_toList, String.toList_ofList, List.flatMap_map]
  generalize bytes.toList = list at ascii
  induction list with
  | nil => rfl
  | cons b list ih =>
    rw [List.flatMap_cons, utf8EncodeChar_ofUInt8 (ascii b List.mem_cons_self),
      ih fun b mem => ascii b (List.mem_cons_of_mem _ mem)]
    rfl

/-! ## Reading with replacements -/

section Bytes

variable {done : List Char} {code n : Nat} {low high b : UInt8} {rest : List UInt8}

/-- The first byte of a sequence of more than one. -/
theorem decodeFrom_lead (leads : followers? b = some n) (more : n ≠ 0) :
    decodeFrom done 0 0 0x80 0xBF (b :: rest) = decodeFrom done n (leadBits b n)
      (if n = 1 then (0x80, 0xBF) else secondRange b).1 (if n = 1 then (0x80, 0xBF) else secondRange b).2 rest := by
  obtain ⟨m, rfl⟩ := Nat.exists_eq_succ_of_ne_zero more
  rw [decodeFrom, if_neg (by simp), leads]
  simp

/-- The next byte of a sequence, if more are to come. -/
theorem decodeFrom_next (missing : Nat) (fits : low ≤ b ∧ b ≤ high) :
    decodeFrom done (missing + 2) code low high (b :: rest) =
      decodeFrom done (missing + 1) (code * 64 + b.toNat % 64) 0x80 0xBF rest := by
  rw [decodeFrom, if_pos ⟨by omega, fits⟩, if_neg (by omega)]
  rfl

/-- The last byte of a sequence. -/
theorem decodeFrom_last (fits : low ≤ b ∧ b ≤ high) :
    decodeFrom done 1 code low high (b :: rest) =
      decodeFrom (Char.ofNat (code * 64 + b.toNat % 64) :: done) 0 0 0x80 0xBF rest := by
  rw [decodeFrom, if_pos ⟨by omega, fits⟩, if_pos rfl]

end Bytes

theorem toNat_ofNat {k : Nat} (byte : k < 256) : (UInt8.ofNat k).toNat = k := by
  rw [UInt8.toNat_ofNat', Nat.mod_eq_of_lt byte]

theorem fits_ofNat {low high : UInt8} {k : Nat} (byte : k < 256) (le : low.toNat ≤ k) (ge : k ≤ high.toNat) :
    low ≤ UInt8.ofNat k ∧ UInt8.ofNat k ≤ high := by
  rw [UInt8.le_iff_toNat_le, UInt8.le_iff_toNat_le, toNat_ofNat byte]
  exact ⟨le, ge⟩

/-- A byte that is not the first one of its character. -/
theorem fits_follower (m : Nat) : 0x80 ≤ UInt8.ofNat (m % 64 + 128) ∧ UInt8.ofNat (m % 64 + 128) ≤ 0xBF :=
  fits_ofNat (by omega) (Nat.le_add_left ..) (by show _ ≤ 0xBF; omega)

theorem eq_of_ofNat_eq {k : Nat} (byte : k < 256) {b : UInt8} (eq : UInt8.ofNat k = b) : k = b.toNat := by
  rw [← eq, toNat_ofNat byte]

theorem followers?_ofNat {k : Nat} (byte : k < 256) : followers? (UInt8.ofNat k) =
    if k < 0x80 then some 0 else if 0xC2 ≤ k ∧ k ≤ 0xDF then some 1 else if 0xE0 ≤ k ∧ k ≤ 0xEF then some 2
    else if 0xF0 ≤ k ∧ k ≤ 0xF4 then some 3 else none := by
  simp only [followers?, UInt8.lt_iff_toNat_lt, UInt8.le_iff_toNat_le, toNat_ofNat byte]
  rfl

/-- The range of the second byte keeps overlong forms, surrogates and what is beyond the last character out. -/
theorem secondRange_fits {k m : Nat} (byte : k < 256) (low : 0x80 ≤ m) (high : m ≤ 0xBF) (e0 : k = 0xE0 → 0xA0 ≤ m)
    (ed : k = 0xED → m ≤ 0x9F) (f0 : k = 0xF0 → 0x90 ≤ m) (f4 : k = 0xF4 → m ≤ 0x8F) :
    (secondRange (UInt8.ofNat k)).1 ≤ UInt8.ofNat m ∧ UInt8.ofNat m ≤ (secondRange (UInt8.ofNat k)).2 := by
  have small : m < 256 := Nat.lt_of_le_of_lt high (by decide)
  unfold secondRange
  split
  · next eq => exact fits_ofNat small (e0 (eq_of_ofNat_eq byte eq)) high
  · split
    · next eq => exact fits_ofNat small low (ed (eq_of_ofNat_eq byte eq))
    · split
      · next eq => exact fits_ofNat small (f0 (eq_of_ofNat_eq byte eq)) high
      · split
        · next eq => exact fits_ofNat small low (f4 (eq_of_ofNat_eq byte eq))
        · exact fits_ofNat small low high

/-- **The bytes of a character** are read as that character. -/
theorem decodeFrom_char (done : List Char) (c : Char) (rest : List UInt8) :
    decodeFrom done 0 0 0x80 0xBF (String.utf8EncodeChar c ++ rest) = decodeFrom (c :: done) 0 0 0x80 0xBF rest := by
  obtain ⟨v, eq⟩ : ∃ v, c.val.toNat = v := ⟨_, rfl⟩
  have same : Char.ofNat v = c := eq ▸ Char.ofNat_toNat c
  have valid : v < 0xD800 ∨ (0xDFFF < v ∧ v < 0x110000) := eq ▸ c.valid
  rw [String.utf8EncodeChar, eq]
  split
  · -- one byte
    have small : v < 256 := by omega
    have leads : followers? (UInt8.ofNat v) = some 0 := by
      rw [followers?_ofNat small, if_pos (by omega)]
    rw [List.singleton_append, decodeFrom, if_neg (by simp), leads]
    simp only [if_true, toNat_ofNat small, same]
  split
  · -- two bytes
    have leads : followers? (UInt8.ofNat (v / 64 % 32 + 192)) = some 1 := by
      rw [followers?_ofNat (by omega), if_neg (by omega), if_pos (by omega)]
    have head : leadBits (UInt8.ofNat (v / 64 % 32 + 192)) 1 = (v / 64 % 32 + 192) % 32 :=
      congrArg (· % 32) (toNat_ofNat (by omega))
    have code : (v / 64 % 32 + 192) % 32 * 64 + (v % 64 + 128) % 64 = v := by omega
    rw [List.cons_append, List.cons_append, List.nil_append, decodeFrom_lead leads (by decide), if_pos rfl,
      decodeFrom_last (fits_follower _), head, toNat_ofNat (by omega), code, same]
  split
  · -- three bytes
    have leads : followers? (UInt8.ofNat (v / 4096 % 16 + 224)) = some 2 := by
      rw [followers?_ofNat (by omega), if_neg (by omega), if_neg (by omega), if_pos (by omega)]
    have head : leadBits (UInt8.ofNat (v / 4096 % 16 + 224)) 2 = (v / 4096 % 16 + 224) % 16 :=
      congrArg (· % 16) (toNat_ofNat (by omega))
    have second : (secondRange (UInt8.ofNat (v / 4096 % 16 + 224))).1 ≤ UInt8.ofNat (v / 64 % 64 + 128) ∧
        UInt8.ofNat (v / 64 % 64 + 128) ≤ (secondRange (UInt8.ofNat (v / 4096 % 16 + 224))).2 := by
      apply secondRange_fits <;> omega
    have code : ((v / 4096 % 16 + 224) % 16 * 64 + (v / 64 % 64 + 128) % 64) * 64 + (v % 64 + 128) % 64 = v := by omega
    rw [List.cons_append, List.cons_append, List.cons_append, List.nil_append, decodeFrom_lead leads (by decide),
      if_neg (by decide), decodeFrom_next 0 second, decodeFrom_last (fits_follower _), head, toNat_ofNat (by omega),
      toNat_ofNat (by omega), code, same]
  · -- four bytes
    have leads : followers? (UInt8.ofNat (v / 262144 % 8 + 240)) = some 3 := by
      rw [followers?_ofNat (by omega), if_neg (by omega), if_neg (by omega), if_neg (by omega), if_pos (by omega)]
    have head : leadBits (UInt8.ofNat (v / 262144 % 8 + 240)) 3 = (v / 262144 % 8 + 240) % 8 :=
      congrArg (· % 8) (toNat_ofNat (by omega))
    have second : (secondRange (UInt8.ofNat (v / 262144 % 8 + 240))).1 ≤ UInt8.ofNat (v / 4096 % 64 + 128) ∧
        UInt8.ofNat (v / 4096 % 64 + 128) ≤ (secondRange (UInt8.ofNat (v / 262144 % 8 + 240))).2 := by
      apply secondRange_fits <;> omega
    have code : (((v / 262144 % 8 + 240) % 8 * 64 + (v / 4096 % 64 + 128) % 64) * 64 + (v / 64 % 64 + 128) % 64) * 64 +
        (v % 64 + 128) % 64 = v := by omega
    rw [List.cons_append, List.cons_append, List.cons_append, List.cons_append, List.nil_append,
      decodeFrom_lead leads (by decide), if_neg (by decide), decodeFrom_next 1 second,
      decodeFrom_next 0 (fits_follower _), decodeFrom_last (fits_follower _), head, toNat_ofNat (by omega),
      toNat_ofNat (by omega), toNat_ofNat (by omega), code, same]

/-- **Well-formed bytes** are read as the text that they encode. -/
theorem decodeLossy_encode (text : String) : decodeLossy (encode text).toList = text := by
  have chars : ∀ (cs done : List Char),
      decodeFrom done 0 0 0x80 0xBF (cs.flatMap String.utf8EncodeChar) = done.reverse ++ cs := by
    intro cs
    induction cs with
    | nil => exact fun done => by simp [decodeFrom]
    | cons c cs ih =>
      intro done
      rw [List.flatMap_cons, decodeFrom_char, ih, List.reverse_cons, List.append_assoc]
      rfl
  rw [decodeLossy, encode_toList, chars]
  exact String.ofList_toList

end ResponseCache.Text
