import Ripple.Language.Extract
import Ripple.Proofs.Ascending
import Ripple.Proofs.Regex.Spans
import Ripple.Proofs.Text.Lines

/-!
The lines of import statements. A line belongs to one if a match of an import pattern takes in a byte
of it, be it of the line feed at its end, or is empty and stands on it. Whatever the patterns are
like, their matches lie in the text, so that no line is counted to them by mistake.
-/

namespace Ripple

open Point

namespace Line

/-- A byte range takes in a byte of the line, or it is empty and begins on the line. -/
def TouchedBy (l : Line) (span : Nat × Nat) : Prop :=
  (∃ offset, span.1 ≤ offset ∧ offset < span.2 ∧ l.start ≤ offset ∧ offset < l.stop) ∨
    span.1 = span.2 ∧ l.start ≤ span.1 ∧ (span.1 < l.stop ∨ l.ending = [])

theorem Of.stop_eq {text : List Char} {l : Line} (line : l.Of text) (endless : l.ending = []) :
    l.stop = size text := by
  obtain ⟨_, _, behind, whole, ends⟩ := line
  rw [endless] at ends
  cases ends
  rw [stop, whole, endless]
  rfl

theorem Of.mem_linesOf_iff {text : List Char} {l : Line} (line : l.Of text) {span : Nat × Nat}
    (ordered : span.1 ≤ span.2) (inside : span.2 ≤ size text) :
    l.number ∈ Language.linesOf (.ofText text) span ↔ l.TouchedBy span := by
  obtain ⟨first, last⟩ := span
  have member : l.number ∈ Language.linesOf (.ofText text) (first, last) ↔
      (first < l.stop ∨ l.ending = []) ∧ l.start ≤ Nat.max (last - 1) first := by
    rw [← line.lineOf_le_number_iff, ← line.number_le_lineOf_iff]
    simp only [Language.linesOf, List.mem_range'_1]
    omega
  have some := line.start_lt_stop
  have whole := line.stop_eq
  rw [member, TouchedBy]
  dsimp only at ordered inside ⊢
  -- The line of the last byte of a span is asked for, and of an empty span that of its start.
  rcases Nat.eq_or_lt_of_le ordered with rfl | less
  · have same : Nat.max (first - 1) first = first := by simp
    rw [same]
    constructor
    · rintro ⟨before, begins⟩
      exact .inr ⟨rfl, begins, before⟩
    · rintro (⟨offset, _⟩ | ⟨_, begins, before⟩)
      · omega
      · exact ⟨before, begins⟩
  · have same : Nat.max (last - 1) first = last - 1 := Nat.max_eq_left (by omega)
    rw [same]
    constructor
    · rintro ⟨before, begins⟩
      have reaches : first < l.stop := by
        rcases before with before | endless
        · exact before
        -- A line without an end reaches as far as the text, in which the span lies.
        · have := whole endless
          omega
      refine .inl ⟨Nat.max first l.start, ?_⟩
      simp only [Nat.max_def]
      split <;> omega
    · rintro (⟨offset, _⟩ | ⟨equal, _⟩)
      · exact ⟨.inl (by omega), by omega⟩
      · omega

end Line

namespace Language

theorem span_inside {l : Language} {source : String} {span : Nat × Nat}
    (member : span ∈ l.importSpans source) :
    span.1 ≤ span.2 ∧ span.2 ≤ size source.toList := by
  obtain ⟨rule, _, listed⟩ := List.mem_flatMap.mp member
  obtain ⟨m, found, rfl⟩ := List.mem_map.mp listed
  exact (Regex.matchesOf_spans found).offset_le

theorem mem_importLines_iff {l : Language} {source : String} {n : Nat} :
    n ∈ l.importLines source ↔
      ∃ span ∈ l.importSpans source, n ∈ linesOf (.ofText source.toList) span := by
  have sorted := List.mergeSort_perm
    ((l.importSpans source).flatMap (linesOf (.ofText source.toList))) fun a b => decide (a ≤ b)
  exact mem_collapse.trans (sorted.mem_iff.trans List.mem_flatMap)

theorem importLines_ascends (l : Language) (source : String) :
    (l.importLines source).Pairwise (· < ·) :=
  collapse_ascends (pairwise_mergeSort_le (by simp) _)

theorem pos_of_mem_importLines {l : Language} {source : String} {n : Nat}
    (member : n ∈ l.importLines source) : 0 < n := by
  obtain ⟨span, _, listed⟩ := mem_importLines_iff.mp member
  simp only [linesOf, List.mem_range'_1, LineIndex.lineOf_eq] at listed
  omega

/-- A line has the number of an import line exactly if an import statement takes in some of it. -/
theorem number_mem_importLines_iff (l : Language) {source : String} {line : Line}
    (inText : line.Of source.toList) :
    line.number ∈ l.importLines source ↔ ∃ span ∈ l.importSpans source, line.TouchedBy span := by
  rw [mem_importLines_iff]
  constructor
  · rintro ⟨span, member, listed⟩
    obtain ⟨ordered, inside⟩ := span_inside member
    exact ⟨span, member, (inText.mem_linesOf_iff ordered inside).mp listed⟩
  · rintro ⟨span, member, touched⟩
    obtain ⟨ordered, inside⟩ := span_inside member
    exact ⟨span, member, (inText.mem_linesOf_iff ordered inside).mpr touched⟩

end Language

end Ripple
