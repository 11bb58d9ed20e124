import Mathlib.Data.List.Basic

/-!
# Arrays of bytes as lists

`ByteArray.toList` is a loop; here it is the list of the array, so that what is known of lists can be used.
-/

namespace ResponseCache.Bytes

theorem toList_loop (bytes : ByteArray) (i : Nat) (done : List UInt8) :
    ByteArray.toList.loop bytes i done = done.reverse ++ bytes.data.toList.drop i := by
  fun_induction ByteArray.toList.loop bytes i done with
  | case1 i done lt ih =>
    rw [ih, List.reverse_cons, List.append_assoc, List.singleton_append,
      List.drop_eq_getElem_cons (l := bytes.data.toList) (i := i) lt]
    congr 2
    exact getElem!_pos bytes.data i lt
  | case2 i done ge =>
    have : bytes.data.toList.length ≤ i := Nat.le_of_not_lt ge
    rw [List.drop_of_length_le this, List.append_nil]

theorem toList_eq_data (bytes : ByteArray) : bytes.toList = bytes.data.toList := by
  rw [ByteArray.toList, toList_loop]
  rfl

theorem toList_inj {a b : ByteArray} : a.toList = b.toList ↔ a = b := by
  rw [toList_eq_data, toList_eq_data, Array.toList_inj]
  exact ⟨ByteArray.ext, congrArg _⟩

theorem toList_toByteArray (bytes : List UInt8) : bytes.toByteArray.toList = bytes := by
  rw [toList_eq_data, List.toList_data_toByteArray]

theorem length_toList (bytes : ByteArray) : bytes.toList.length = bytes.size := by
  rw [toList_eq_data]
  rfl

theorem toList_extract (bytes : ByteArray) (n : Nat) : (bytes.extract 0 n).toList = bytes.toList.take n := by
  simp [toList_eq_data]

end ResponseCache.Bytes
