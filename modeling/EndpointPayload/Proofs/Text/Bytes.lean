import Mathlib.Tactic

/-!
# Bytes of texts

The bytes of two texts in a row are the bytes of the one and then those of the other, and two texts
with the same bytes are the same text.
-/

namespace EndpointPayload
namespace Text

/-- Reading bytes from a position on puts them behind those already read, which come last first. -/
theorem toList_loop (bytes : ByteArray) (i : Nat) (done : List UInt8) :
    ByteArray.toList.loop bytes i done = done.reverse ++ bytes.data.toList.drop i := by
  fun_induction ByteArray.toList.loop bytes i done with
  | case1 i done h ih =>
      have hi : i < bytes.data.toList.length := by simpa using h
      rw [ih, List.drop_eq_getElem_cons hi]
      simp [ByteArray.get!, h]
  | case2 i done h =>
      have hend : bytes.data.toList.length ≤ i := by simpa using Nat.le_of_not_lt h
      rw [List.drop_eq_nil_of_le hend, List.append_nil]

theorem toList_eq_data (bytes : ByteArray) : bytes.toList = bytes.data.toList := by
  rw [ByteArray.toList, toList_loop]
  rfl

theorem toUTF8_append (s t : String) :
    (s ++ t).toUTF8.toList = s.toUTF8.toList ++ t.toUTF8.toList := by
  simp only [String.toUTF8_eq_toByteArray, toList_eq_data, String.toByteArray_append,
    ByteArray.data_append, Array.toList_append]

theorem toUTF8_inj {s t : String} : s.toUTF8.toList = t.toUTF8.toList ↔ s = t := by
  rw [toList_eq_data, toList_eq_data, Array.toList_inj, String.toUTF8_eq_toByteArray,
    String.toUTF8_eq_toByteArray, ← String.toByteArray_inj]
  exact ⟨ByteArray.ext, fun h => by rw [h]⟩

end Text
end EndpointPayload
