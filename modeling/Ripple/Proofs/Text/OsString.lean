import Ripple.Proofs.Text.Encoding
import Ripple.Text.OsString

/-!
Strings of the operating system. Those that are texts are the encodings of texts, each of one text
only, and they are shown as they are. The order of strings is linear.
-/

namespace Ripple.OsString

theorem bytes_ofText (text : String) : (ofText text).bytes = Text.bytes text.toList := by
  rw [ofText, ← Text.toList_eq_data, Text.toList_toUTF8]

@[simp]
theorem bytes_append (a b : OsString) : (a ++ b).bytes = a.bytes ++ b.bytes := rfl

theorem ofText_injective {a b : String} (same : ofText a = ofText b) : a = b := by
  have bytes : a.toUTF8.data = b.toUTF8.data := Array.toList_inj.mp (congrArg OsString.bytes same)
  exact String.toByteArray_inj.mp (ByteArray.ext bytes)

@[simp]
theorem ofText_inj {a b : String} : ofText a = ofText b ↔ a = b :=
  ⟨ofText_injective, congrArg ofText⟩

@[simp]
theorem text?_ofText (text : String) : (ofText text).text? = some text := by
  change String.fromUTF8? text.toUTF8 = some text
  exact dif_pos text.isValidUTF8

/-- A string that is a text is the encoding of that text. -/
theorem text?_eq_some_iff {s : OsString} {text : String} : s.text? = some text ↔ s = ofText text := by
  constructor
  · intro decoded
    rw [text?, String.fromUTF8?] at decoded
    split at decoded
    next valid =>
      cases decoded
      rfl
    next => cases decoded
  · rintro rfl
    exact text?_ofText text

/-- Strings that are all texts. -/
abbrev Textual (strings : List OsString) : Prop := ∀ s ∈ strings, s.text?.isSome = true

/-- A text is shown as it is. -/
@[simp]
theorem display_ofText (text : String) : (ofText text).display = text := by
  rw [display, text?_ofText, Option.getD_some]

instance : Std.IsLinearOrder OsString where
  le_refl a := List.lt_irrefl a.bytes
  le_trans _ _ _ := List.le_trans
  le_antisymm a b below above := by
    obtain ⟨a⟩ := a
    obtain ⟨b⟩ := b
    exact congrArg OsString.mk (List.le_antisymm below above)
  le_total a b := List.le_total a.bytes b.bytes

instance : Std.LawfulOrderLT OsString where
  lt_iff a b := by
    have reversed : ¬ b ≤ a ↔ a < b := Decidable.not_not
    rw [reversed]
    exact ⟨fun below => ⟨List.lt_asymm below, below⟩, And.right⟩

end Ripple.OsString
