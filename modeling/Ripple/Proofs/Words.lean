import Ripple.Unicode.Property

/-!
No character of a word is a blank. Both classes are tables of ranges, and a table holds only what
lies in one of its ranges.
-/

namespace Ripple.Unicode

namespace Table

/-- What is found in a table belongs to a row that begins no later than what was sought. -/
theorem mem_of_seek {α : Type} {t : Table α} {x lo hi : Nat} {v : α}
    (below : ∀ row, lo ≠ 0 → t[lo - 1]? = some row → row.1 ≤ x) (found : t.seek x lo hi = some v) :
    ∃ start, (start, v) ∈ t ∧ start ≤ x := by
  fun_induction seek t x lo hi with
  | case1 lo hi inside mid start value here reached ih =>
    refine ih (fun row _ last => ?_) found
    rw [Nat.add_sub_cancel, here] at last
    cases last
    exact reached
  | case2 lo hi inside mid start value here beyond ih => exact ih below found
  | case3 => simp at found
  | case4 => simp at found
  | case5 lo hi closed nonzero =>
    obtain ⟨⟨start, value⟩, last, rfl⟩ := Option.map_eq_some_iff.mp found
    exact ⟨start, Array.mem_of_getElem? last, below _ nonzero last⟩

theorem exists_range_of_holds {t : Table Nat} {x : Nat} (held : t.holds x = true) :
    ∃ row ∈ t, row.1 ≤ x ∧ x ≤ row.2 := by
  rw [holds] at held
  split at held
  next last found =>
    obtain ⟨start, member, reached⟩ := mem_of_seek (by simp) found
    exact ⟨(start, last), member, reached, by simpa using held⟩
  next => simp at held

end Table

/-- The ranges of words lie apart from those of blanks. -/
theorem word_ranges_apart : ∀ row ∈ Listed.word.toList, ∀ gap ∈ Listed.whiteSpace.toList,
    row.2 < gap.1 ∨ gap.2 < row.1 := by
  decide +kernel

theorem ascii_words_apart : ∀ n < 128,
    ((Char.ofNat n).isAlphanum || Char.ofNat n = '_') = true →
    (Char.ofNat n = ' ' || (9 ≤ n && n ≤ 13)) = false := by
  decide +kernel

theorem isSpace_eq_false_of_isWord {c : Char} (word : isWord c = true) : isSpace c = false := by
  rw [isWord] at word
  rw [isSpace]
  split
  next ascii =>
    simp only [ascii, if_true] at word
    have apart := ascii_words_apart c.toNat ascii
    rw [Char.ofNat_toNat] at apart
    exact apart word
  next wide =>
    simp only [wide, if_false] at word
    rw [Bool.eq_false_iff]
    intro space
    obtain ⟨row, member, low, high⟩ := Table.exists_range_of_holds word
    obtain ⟨gap, member', low', high'⟩ := Table.exists_range_of_holds space
    have := word_ranges_apart row (Array.mem_toList_iff.mpr member) gap
      (Array.mem_toList_iff.mpr member')
    omega

end Ripple.Unicode
