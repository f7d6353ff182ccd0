import FuturesChains.Text.Bytes

/-!
# The bytes of a text

The UTF-8 form of a list of characters, and of a text. `toList_toUTF8_eq_iff` says that the bytes of
a text are those of its own characters only, so that a text can be told from its bytes.
-/

namespace FuturesChains.Text

/-- The bytes of some characters. -/
def utf8 (cs : List Char) : List UInt8 := cs.flatMap String.utf8EncodeChar

theorem utf8_nil : utf8 [] = [] := rfl

theorem utf8_cons (c : Char) (cs : List Char) : utf8 (c :: cs) = utf8 [c] ++ utf8 cs := by
  simp [utf8]

theorem utf8_append (left right : List Char) : utf8 (left ++ right) = utf8 left ++ utf8 right :=
  List.flatMap_append

/-- A character takes a byte or more. -/
theorem length_le_length_utf8 (cs : List Char) : cs.length ≤ (utf8 cs).length := by
  induction cs with
  | nil => exact Nat.le_refl 0
  | cons c rest ih =>
      have hpos := c.utf8Size_pos
      rw [utf8_cons, List.length_append, List.length_cons]
      have hone : (utf8 [c]).length = c.utf8Size := by simp [utf8]
      omega

theorem toList_loop (bytes : ByteArray) (i : Nat) (front : List UInt8) :
    ByteArray.toList.loop bytes i front = front.reverse ++ bytes.data.toList.drop i := by
  induction i, front using ByteArray.toList.loop.induct bytes with
  | case1 i front hlt ih =>
      have hi : i < bytes.data.toList.length := hlt
      have hget : bytes.get! i = bytes.data.toList[i] := by
        rw [ByteArray.get!, Array.getElem_toList]
        exact getElem!_pos bytes.data i hlt
      rw [ByteArray.toList.loop, if_pos hlt, ih, List.drop_eq_getElem_cons hi, hget]
      simp
  | case2 i front hge =>
      have hlength : bytes.data.toList.length ≤ i := Nat.le_of_not_lt hge
      rw [ByteArray.toList.loop, if_neg hge, List.drop_eq_nil_of_le hlength, List.append_nil]

/-- The bytes of a text are those of its characters and of no others. -/
theorem toList_toUTF8_eq_iff {text : String} {cs : List Char} :
    text.toUTF8.toList = utf8 cs ↔ text.toList = cs := by
  have hbytes : ∀ bytes : ByteArray, bytes.toList = bytes.data.toList := fun bytes => by
    rw [ByteArray.toList, toList_loop, List.reverse_nil, List.nil_append, List.drop_zero]
  have hlist : ∀ cs : List Char, (String.ofList cs).toUTF8.toList = utf8 cs := fun cs => by
    rw [hbytes, String.toUTF8, String.toByteArray_ofList, List.utf8Encode, List.data_toByteArray]
    rfl
  constructor
  · intro h
    rw [← hlist, hbytes, hbytes] at h
    have hdata : text.toByteArray = (String.ofList cs).toByteArray :=
      ByteArray.ext (Array.toList_inj.1 h)
    rw [String.toByteArray_inj.1 hdata, String.toList_ofList]
  · rintro rfl
    rw [← hlist, String.ofList_toList]

end FuturesChains.Text
