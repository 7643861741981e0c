import Mathlib.Order.Monotone.Defs
import Ripple.Proofs.Text.Encoding
import Ripple.Proofs.Text.Lines

/-!
Line numbers as counts of bytes. No other character has the byte of a line feed among its bytes, so
the line feeds before an offset are the bytes of that value before it. The line found for an offset,
be it within a text, at its end or beyond, is one more than their number, and the lines that a text
is cut into begin on the lines of their numbers.
-/

namespace Ripple.LineIndex

open Text

/-- The line feeds that come to an end by some limit are those among the bytes before it. -/
theorem countP_feedEnds_eq (text : List Char) (offset limit : Nat) :
    (feedEnds text offset).countP (· ≤ limit) = ((bytes text).take (limit - offset)).count 10 := by
  induction text generalizing offset with
  | nil => simp [feedEnds]
  | cons c text ih =>
    have behind : limit - offset - (String.utf8EncodeChar c).length =
        limit - (offset + c.utf8Size) := by
      rw [String.length_utf8EncodeChar, Nat.sub_sub]
    rw [bytes_cons, List.take_append, List.count_append, behind, ← ih]
    simp only [feedEnds]
    split
    next feed =>
      subst feed
      have single : String.utf8EncodeChar '\n' = [10] := by decide
      have width : '\n'.utf8Size = 1 := rfl
      rw [single, width]
      by_cases early : offset + 1 ≤ limit
      · have reached : 1 ≤ limit - offset := by omega
        rw [List.countP_cons_of_pos (by simpa using early), List.take_of_length_le reached,
          List.count_singleton_self, Nat.add_comm]
      · -- Behind the limit there is no byte left to be looked at.
        have none : limit - offset = 0 := by omega
        rw [List.countP_cons_of_neg (by simpa using early), none, List.take_zero, List.count_nil,
          Nat.zero_add]
    next other =>
      have none : 10 ∉ (String.utf8EncodeChar c).take (limit - offset) :=
        fun member => other (feed_of_mem_encode (List.mem_of_mem_take member))
      rw [List.count_eq_zero.mpr none, Nat.zero_add]

/-- The line of an offset, wherever that lies, is one more than the number of line feeds among the
bytes before it. So there is no line before the first, lines never go back, and each line that a
text is cut into begins on the line of its number. -/
theorem lineOf_counts_feeds (source : String) :
    (∀ offset, (ofText source.toList).lineOf offset =
        1 + (source.toUTF8.toList.take offset).count 10) ∧
      (∀ offset, 1 ≤ (ofText source.toList).lineOf offset) ∧
      Monotone (ofText source.toList).lineOf ∧
      (∀ l ∈ Line.all source.toList, l.Of source.toList) ∧
      (Line.all source.toList).map (fun l => (l.content, (ofText source.toList).lineOf l.start)) =
        (lines source.toList).zipIdx 1 := by
  have counted : ∀ offset, (ofText source.toList).lineOf offset =
      1 + (source.toUTF8.toList.take offset).count 10 := by
    intro offset
    rw [lineOf_eq, countP_feedEnds_eq, toList_toUTF8, Nat.sub_zero, Nat.add_comm]
  refine ⟨counted, fun offset => ?_, fun _ _ le => lineOf_mono _ le, fun l => Line.mem_all_iff.mp, ?_⟩
  · rw [counted]
    exact Nat.le_add_right 1 _
  · rw [Line.zipIdx_lines_eq]
    refine List.map_congr_left fun l member => ?_
    rw [(Line.mem_all_iff.mp member).lineOf_start]

-- Offsets on a line feed and behind one, on an empty line, at the end and beyond.
example : [0, 1, 2, 4, 5, 6, 9, 50].map (ofText "a\nbb\n\nccc".toList).lineOf =
    [1, 1, 2, 2, 3, 4, 4, 4] := by decide

end Ripple.LineIndex
