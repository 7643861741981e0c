import Mathlib.Data.List.Basic

/-!
Texts as bytes. Characters are written so that their order is that of their bytes, and no character
begins with the bytes of another one.
-/

namespace Ripple.Text

/-- The bytes of a text. -/
def bytes (cs : List Char) : List UInt8 := cs.flatMap String.utf8EncodeChar

@[simp]
theorem bytes_nil : bytes [] = [] := rfl

@[simp]
theorem bytes_cons (c : Char) (cs : List Char) :
    bytes (c :: cs) = String.utf8EncodeChar c ++ bytes cs := rfl

@[simp]
theorem bytes_append (cs ds : List Char) : bytes (cs ++ ds) = bytes cs ++ bytes ds :=
  List.flatMap_append

theorem toList_loop (content : ByteArray) (i : Nat) (done : List UInt8) :
    ByteArray.toList.loop content i done = done.reverse ++ content.data.toList.drop i := by
  fun_induction ByteArray.toList.loop content i done with
  | case1 i done inside ih =>
    have inList : i < content.data.toList.length := by simpa using inside
    rw [ih, List.drop_eq_getElem_cons inList]
    simp [ByteArray.get!, inside]
  | case2 i done outside =>
    rw [List.drop_eq_nil_of_le (by simpa using outside), List.append_nil]

theorem toList_eq_data (content : ByteArray) : content.toList = content.data.toList := by
  rw [ByteArray.toList, toList_loop]
  simp

theorem toList_toUTF8 (text : String) : text.toUTF8.toList = bytes text.toList := by
  rw [toList_eq_data, String.toUTF8, ← String.utf8Encode_toList, List.utf8Encode,
    List.toList_data_toByteArray, bytes]

theorem byte_cons_lt {a b : Nat} {u v : List UInt8} (less : a < b) (small : b < 256) :
    UInt8.ofNat a :: u < UInt8.ofNat b :: v := by
  refine List.cons_lt_cons_iff.mpr (.inl ?_)
  rw [UInt8.lt_iff_toNat_lt, UInt8.toNat_ofNat', UInt8.toNat_ofNat']
  omega

theorem byte_cons_le {a b : Nat} {u v : List UInt8} (ordered : a ≤ b) (small : b < 256)
    (rest : a = b → u < v) : UInt8.ofNat a :: u < UInt8.ofNat b :: v := by
  rcases Nat.lt_or_eq_of_le ordered with less | rfl
  · exact byte_cons_lt less small
  · exact List.cons_lt_cons_iff.mpr (.inr ⟨rfl, rest rfl⟩)

theorem val_lt (c : Char) : c.val.toNat < 0x110000 := by
  have valid := c.valid
  unfold UInt32.isValidChar Nat.isValidChar at valid
  omega

/-- A byte below 128 encodes a character by itself. -/
theorem toNat_of_mem_encode {c : Char} {b : UInt8} (member : b ∈ String.utf8EncodeChar c)
    (small : b.toNat < 128) : c.toNat = b.toNat := by
  -- The bytes of a longer form are sums with 128 or more.
  have large : ∀ n, 128 ≤ n → n < 256 → b ≠ UInt8.ofNat n := by
    rintro n above below rfl
    rw [UInt8.toNat_ofNat', Nat.mod_eq_of_lt below] at small
    omega
  have top := val_lt c
  unfold String.utf8EncodeChar at member
  change c.val.toNat = b.toNat
  generalize c.val.toNat = n at member top
  dsimp only at member
  split_ifs at member with one two three
  · rw [List.mem_singleton.mp member, UInt8.toNat_ofNat']
    omega
  all_goals
    simp only [List.mem_cons, List.not_mem_nil, or_false] at member
  · rcases member with same | same
    all_goals exact absurd same (large _ (by omega) (by omega))
  · rcases member with same | same | same
    all_goals exact absurd same (large _ (by omega) (by omega))
  · rcases member with same | same | same | same
    all_goals exact absurd same (large _ (by omega) (by omega))

theorem feed_of_mem_encode {c : Char} (member : 10 ∈ String.utf8EncodeChar c) : c = '\n' :=
  Char.ext (UInt32.toNat_inj.mp (toNat_of_mem_encode member (by decide)))

theorem carriage_of_mem_encode {c : Char} (member : 13 ∈ String.utf8EncodeChar c) : c = '\r' :=
  Char.ext (UInt32.toNat_inj.mp (toNat_of_mem_encode member (by decide)))

/-- A smaller character has smaller bytes, whatever follows. -/
theorem encode_append_lt {c d : Char} (less : c < d) (u v : List UInt8) :
    String.utf8EncodeChar c ++ u < String.utf8EncodeChar d ++ v := by
  have values : c.val.toNat < d.val.toNat := less
  have top := val_lt d
  unfold String.utf8EncodeChar
  generalize c.val.toNat = m at values
  generalize d.val.toNat = n at values top
  dsimp only
  -- The first bytes tell the lengths apart; for equal lengths the digits are compared in order.
  split_ifs
  · exact byte_cons_lt values (by omega)
  · exact byte_cons_lt (by omega) (by omega)
  · exact byte_cons_lt (by omega) (by omega)
  · exact byte_cons_lt (by omega) (by omega)
  · omega
  · refine byte_cons_le (by omega) (by omega) fun first => ?_
    exact byte_cons_lt (by omega) (by omega)
  · exact byte_cons_lt (by omega) (by omega)
  · exact byte_cons_lt (by omega) (by omega)
  · omega
  · omega
  · refine byte_cons_le (by omega) (by omega) fun first => ?_
    refine byte_cons_le (by omega) (by omega) fun second => ?_
    exact byte_cons_lt (by omega) (by omega)
  · exact byte_cons_lt (by omega) (by omega)
  · omega
  · omega
  · omega
  · refine byte_cons_le (by omega) (by omega) fun first => ?_
    refine byte_cons_le (by omega) (by omega) fun second => ?_
    refine byte_cons_le (by omega) (by omega) fun third => ?_
    exact byte_cons_lt (by omega) (by omega)

/-- The order of texts is that of their bytes. -/
theorem bytes_lt {cs ds : List Char} (less : cs < ds) : bytes cs < bytes ds := by
  induction cs generalizing ds with
  | nil =>
    cases ds with
    | nil => exact absurd less (List.not_lt_nil _)
    | cons d ds =>
      obtain ⟨b, rest, shape⟩ := List.exists_cons_of_ne_nil (String.utf8EncodeChar_ne_nil (c := d))
      rw [bytes_nil, bytes_cons, shape, List.cons_append]
      exact List.nil_lt_cons b _
  | cons c cs ih =>
    cases ds with
    | nil => exact absurd less (List.not_lt_nil _)
    | cons d ds =>
      rw [bytes_cons, bytes_cons]
      rcases List.cons_lt_cons_iff.mp less with below | ⟨rfl, rest⟩
      · exact encode_append_lt below _ _
      · exact List.append_left_lt (ih rest)

end Ripple.Text
