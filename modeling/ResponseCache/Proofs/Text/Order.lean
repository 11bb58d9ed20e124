import Mathlib.Data.String.Basic
import ResponseCache.Proofs.Text.Utf8

/-!
# The order of texts

Texts are compared character by character. Their bytes are in the same order (`encode_lt_iff`), since a smaller
character has smaller bytes, however many they are (`utf8EncodeChar_lt`).
-/

namespace ResponseCache.Text

/-- **A smaller character** has smaller bytes, whatever follows. -/
theorem utf8EncodeChar_lt {c d : Char} (lt : c < d) (x y : List UInt8) :
    String.utf8EncodeChar c ++ x < String.utf8EncodeChar d ++ y := by
  obtain ⟨v, v_eq⟩ : ∃ v, c.val.toNat = v := ⟨_, rfl⟩
  obtain ⟨w, w_eq⟩ : ∃ w, d.val.toNat = w := ⟨_, rfl⟩
  have below : v < w := v_eq ▸ w_eq ▸ lt
  have bound : w < 0x110000 := by
    rcases d.valid with valid | valid <;> omega
  have lt_iff : ∀ {a b : Nat}, a < 256 → b < 256 → (UInt8.ofNat a < UInt8.ofNat b ↔ a < b) := fun ha hb => by
    rw [UInt8.lt_iff_toNat_lt, toNat_ofNat ha, toNat_ofNat hb]
  have eq_iff : ∀ {a b : Nat}, a < 256 → b < 256 → (UInt8.ofNat a = UInt8.ofNat b ↔ a = b) := fun ha hb => by
    rw [← UInt8.toNat_inj, toNat_ofNat ha, toNat_ofNat hb]
  have sixes : ∀ n : Nat, n / 4096 = n / 64 / 64 ∧ n / 262144 = n / 64 / 64 / 64 := fun n => by omega
  rw [String.utf8EncodeChar, String.utf8EncodeChar, v_eq, w_eq, (sixes v).1, (sixes v).2, (sixes w).1, (sixes w).2]
  -- with more bytes the first one is larger; with as many, the first one that differs
  split_ifs <;> first | omega | skip
  all_goals
    simp (disch := omega) only [List.cons_append, List.nil_append, List.cons_lt_cons_iff, lt_iff, eq_iff]
    omega

theorem flatMap_utf8EncodeChar_lt {cs ds : List Char} (lt : cs < ds) :
    cs.flatMap String.utf8EncodeChar < ds.flatMap String.utf8EncodeChar := by
  induction cs generalizing ds with
  | nil =>
    cases ds with
    | nil => exact (List.lt_irrefl _ lt).elim
    | cons d ds =>
      obtain ⟨b, bytes, eq⟩ := List.exists_cons_of_ne_nil (String.utf8EncodeChar_ne_nil (c := d))
      rw [List.flatMap_cons, eq]
      exact List.nil_lt_cons _ _
  | cons c cs ih =>
    cases ds with
    | nil => exact (List.not_lt_nil _ lt).elim
    | cons d ds =>
      rw [List.flatMap_cons, List.flatMap_cons]
      rcases List.cons_lt_cons_iff.1 lt with here | ⟨rfl, rest⟩
      · exact utf8EncodeChar_lt here _ _
      · exact List.Lex.append_left _ (ih rest) _

/-- **The order of texts** is the order of their bytes. -/
theorem encode_lt_iff {s t : String} : (encode s).toList < (encode t).toList ↔ s < t := by
  have mono : ∀ {s t : String}, s < t → (encode s).toList < (encode t).toList := fun lt => by
    rw [encode_toList, encode_toList]
    exact flatMap_utf8EncodeChar_lt (String.lt_iff.1 lt)
  refine ⟨fun lt => ?_, mono⟩
  rcases lt_trichotomy s t with before | rfl | behind
  · exact before
  · exact (List.lt_irrefl _ lt).elim
  · exact (List.lt_asymm lt (mono behind)).elim

end ResponseCache.Text
