import Ripple.Proofs.Language.Spacing
import Ripple.Proofs.Regex.Finding

/-!
Rows of lines, each with the line feed that ends it. A text that begins with a row is cut at the
beginning of a line only between two lines of the row, or behind the row. What is read up to a mark
reaches the first mark at least.
-/

namespace Ripple

theorem CharSet.mem_compl_single {c d : Char} : (compl (single d)).mem c = true ↔ c ≠ d := by
  rw [mem, Bool.not_eq_true', Bool.eq_false_iff, ne_eq, mem_single]

/-- Everything up to a character is accepted where this character does not occur. -/
theorem Regex.Accepts.without {c : Char} {w : List Char} (absent : c ∉ w) :
    Accepts [Language.Part.many (.compl (.single c))] w :=
  .run (Nat.zero_le _) fun _ listed =>
    CharSet.mem_compl_single.mpr fun same => absent (same ▸ listed)

theorem Regex.Accepts.indented {rs : List Regex} {w : List Char} (accepts : Accepts rs w)
    {text u : List Char} {p q : Point} (reads : (Point.start text).Reads u p)
    (whole : Text.WholeLines u) (read : p.Reads w q) :
    (seqs (Language.Part.indent ++ rs)).Takes p q :=
  (Language.takes_indent_iff reads).mpr ⟨whole, [], p, by simp, rfl, accepts p q read⟩

namespace Text

/-- A mark is the first one of the text, or stands behind it. -/
theorem cut_mark (mark : Char → Bool) {s t x r : List Char} {k d : Char}
    (free : ∀ c ∈ s, mark c = false) (found : mark d = true) (same : s ++ k :: t = x ++ d :: r) :
    (x = s ∧ d = k ∧ r = t) ∨ ∃ y, x = s ++ k :: y ∧ t = y ++ d :: r := by
  rcases List.append_eq_append_iff.mp same with ⟨a, rfl, rest⟩ | ⟨a, rfl, rest⟩
  · cases a with
    | nil =>
      obtain ⟨rfl, rfl⟩ := List.cons.inj rest
      exact .inl ⟨by simp, rfl, rfl⟩
    | cons c a =>
      obtain ⟨rfl, rfl⟩ := List.cons.inj rest
      exact .inr ⟨a, rfl, rfl⟩
  · cases a with
    | nil =>
      obtain ⟨rfl, rfl⟩ := List.cons.inj rest
      exact .inl ⟨by simp, rfl, rfl⟩
    | cons c a =>
      obtain ⟨rfl, _⟩ := List.cons.inj rest
      simp [free d] at found

theorem cut_char {s t x r : List Char} {c : Char} (absent : c ∉ s)
    (same : s ++ c :: t = x ++ c :: r) : (x = s ∧ r = t) ∨ ∃ y, x = s ++ c :: y ∧ t = y ++ c :: r := by
  have free : ∀ d ∈ s, decide (d = c) = false :=
    fun d listed => decide_eq_false fun equal => absent (equal ▸ listed)
  rcases cut_mark (· = c) free (decide_eq_true rfl) same with ⟨rfl, _, rfl⟩ | later
  · exact .inl ⟨rfl, rfl⟩
  · exact .inr later

theorem cut_unique {s t x r : List Char} {c : Char} (absent : c ∉ s) (absent' : c ∉ x)
    (same : s ++ c :: t = x ++ c :: r) : x = s ∧ r = t := by
  rcases cut_char absent same with here | ⟨y, rfl, _⟩
  · exact here
  · simp at absent'

/-- What is read up to a mark reaches the first mark of the text at least. -/
theorem reaches_mark (mark : Char → Bool) {s t x r : List Char} {k d : Char}
    (free : ∀ c ∈ s, mark c = false) (found : mark d = true) (same : s ++ k :: t = x ++ d :: r) :
    ∃ z, x ++ [d] = s ++ k :: z ∧ t = z ++ r := by
  rcases cut_mark mark free found same with ⟨rfl, rfl, rfl⟩ | ⟨y, rfl, rfl⟩
  · exact ⟨[], rfl, rfl⟩
  · exact ⟨y ++ [d], by simp, by simp⟩

/-- The text of some lines, each with its line feed. -/
def rows (lines : List (List Char)) : List Char := lines.flatMap (· ++ ['\n'])

@[simp] theorem rows_nil : rows [] = [] := rfl

@[simp] theorem rows_cons (line : List Char) (lines : List (List Char)) :
    rows (line :: lines) = line ++ '\n' :: rows lines := by
  simp [rows]

@[simp] theorem rows_append (lines lines' : List (List Char)) :
    rows (lines ++ lines') = rows lines ++ rows lines' := by
  simp [rows]

theorem rows_wholeLines (lines : List (List Char)) : WholeLines (rows lines) := by
  rcases List.eq_nil_or_concat' lines with rfl | ⟨earlier, last, rfl⟩
  · exact .inl rfl
  · exact .inr ⟨rows earlier ++ last, by simp⟩

theorem not_mem_rows {c : Char} (other : c ≠ '\n') {lines : List (List Char)}
    (absent : ∀ line ∈ lines, c ∉ line) : c ∉ rows lines := by
  intro listed
  obtain ⟨line, here, member⟩ := List.mem_flatMap.mp listed
  rcases List.mem_append.mp member with member | feed
  · exact absent line here member
  · exact other (List.mem_singleton.mp feed)

theorem count_rows {lines : List (List Char)} (single : ∀ line ∈ lines, '\n' ∉ line) :
    (rows lines).count '\n' = lines.length := by
  induction lines with
  | nil => rfl
  | cons line lines ih =>
    obtain ⟨here, others⟩ := List.forall_mem_cons.mp single
    rw [rows_cons, List.count_append, List.count_eq_zero.mpr here, List.count_cons_self, ih others,
      List.length_cons, Nat.zero_add]

/-- Where whole lines end in a text that begins with a row of lines, a line of the row begins, or they
reach behind the row. -/
theorem rows_cut {lines : List (List Char)} (single : ∀ line ∈ lines, '\n' ∉ line)
    {u rest tail : List Char} (whole : WholeLines u) (same : u ++ rest = rows lines ++ tail) :
    (∃ before line after, lines = before ++ line :: after ∧ u = rows before ∧
      rest = line ++ '\n' :: (rows after ++ tail)) ∨
    ∃ v, WholeLines v ∧ u = rows lines ++ v ∧ tail = v ++ rest := by
  induction lines generalizing u with
  | nil => exact .inr ⟨u, whole, rfl, same.symm⟩
  | cons line lines ih =>
    obtain ⟨here, others⟩ := List.forall_mem_cons.mp single
    rcases whole with rfl | ⟨v, rfl⟩
    · exact .inl ⟨[], line, lines, rfl, rfl, by simpa using same⟩
    · have feeds : line ++ '\n' :: (rows lines ++ tail) = v ++ '\n' :: rest := by
        simpa using same.symm
      -- The whole lines end behind the first line of the row, or go on with whole lines.
      obtain ⟨w, ends, shape, later⟩ : ∃ w, WholeLines w ∧ v ++ ['\n'] = line ++ '\n' :: w ∧
          w ++ rest = rows lines ++ tail := by
        rcases cut_char here feeds with ⟨rfl, rfl⟩ | ⟨y, rfl, later⟩
        · exact ⟨[], .inl rfl, rfl, rfl⟩
        · exact ⟨y ++ ['\n'], .inr ⟨y, rfl⟩, by simp, by simp [later]⟩
      rw [shape]
      rcases ih others ends later with
        ⟨before, first, after, rfl, rfl, behind⟩ | ⟨v, whole, rfl, behind⟩
      · exact .inl ⟨line :: before, first, after, rfl, by simp, behind⟩
      · exact .inr ⟨v, whole, by simp, behind⟩

end Text

end Ripple
