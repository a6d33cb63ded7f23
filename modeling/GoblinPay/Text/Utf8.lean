import Mathlib.Data.List.Basic

/-!
# UTF-8

`str::as_bytes` as a list of bytes.
-/

namespace GoblinPay.Text

def utf8 (cs : List Char) : List UInt8 := cs.flatMap String.utf8EncodeChar

theorem toList_toByteArray (cs : List Char) : cs.utf8Encode.data.toList = utf8 cs := by
  rw [List.utf8Encode, utf8]
  exact List.toList_data_toByteArray

theorem toUTF8_eq (s : String) : s.toUTF8.data.toList = utf8 s.toList := by
  have text : s.toUTF8 = s.toList.utf8Encode := String.utf8Encode_toList.symm
  rw [text, toList_toByteArray]

/-- A text is determined by its bytes. -/
theorem utf8_injective {cs ds : List Char} (h : utf8 cs = utf8 ds) : cs = ds := by
  rw [← toList_toByteArray, ← toList_toByteArray] at h
  have bytes : (String.ofList cs).toByteArray = (String.ofList ds).toByteArray := by
    rw [String.toByteArray_ofList, String.toByteArray_ofList]
    exact ByteArray.ext (Array.toList_inj.1 h)
  exact String.ofList_inj.1 (String.toByteArray_inj.1 bytes)

theorem utf8EncodeChar_ascii {c : Char} (h : c.toNat < 128) : String.utf8EncodeChar c = [c.val.toUInt8] := by
  refine String.utf8EncodeChar_eq_singleton (Char.utf8Size_eq_one_iff.2 (UInt32.le_iff_toNat_le.2 ?_))
  exact Nat.le_of_lt_succ h

end GoblinPay.Text
