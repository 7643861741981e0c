import Ripple.Proofs.Words
import Ripple.Text.Basic

/-!
Pieces of a text. A text is its first piece followed by the others with a separator before each, and
no piece holds a separator. The first word of a text is what stands between its first blanks.
-/

namespace Ripple.Text

section Elements

variable {α : Type}

theorem splitBy_cons (test : α → Bool) (c : α) (cs : List α) :
    ∃ piece pieces, splitBy test cs = piece :: pieces ∧
      splitBy test (c :: cs) =
        if test c then [] :: piece :: pieces else (c :: piece) :: pieces := by
  have some : ∃ piece pieces, splitBy test cs = piece :: pieces := by
    induction cs with
    | nil => exact ⟨[], [], rfl⟩
    | cons d cs ih =>
      obtain ⟨piece, pieces, found⟩ := ih
      rw [splitBy] at found
      rw [splitBy, List.foldr_cons, found]
      split
      · exact ⟨_, _, rfl⟩
      · exact ⟨_, _, rfl⟩
  obtain ⟨piece, pieces, found⟩ := some
  refine ⟨piece, pieces, found, ?_⟩
  rw [splitBy] at found
  rw [splitBy, List.foldr_cons, found]

theorem splitBy_of_fail {test : α → Bool} {u : List α} (fails : ∀ c ∈ u, test c = false) :
    splitBy test u = [u] := by
  induction u with
  | nil => rfl
  | cons c u ih =>
    simp only [List.mem_cons, forall_eq_or_imp] at fails
    obtain ⟨piece, pieces, found, step⟩ := splitBy_cons test c u
    rw [ih fails.2, List.cons.injEq] at found
    rw [step, fails.1, ← found.1, ← found.2]
    rfl

theorem splitBy_append {test : α → Bool} {u v : List α} {sep : α}
    (fails : ∀ c ∈ u, test c = false) (passes : test sep = true) :
    splitBy test (u ++ sep :: v) = u :: splitBy test v := by
  induction u with
  | nil =>
    obtain ⟨piece, pieces, found, step⟩ := splitBy_cons test sep v
    rw [List.nil_append, step, passes, found]
    rfl
  | cons c u ih =>
    simp only [List.mem_cons, forall_eq_or_imp] at fails
    obtain ⟨piece, pieces, found, step⟩ := splitBy_cons test c (u ++ sep :: v)
    rw [ih fails.2, List.cons.injEq] at found
    rw [List.cons_append, step, fails.1, ← found.1, ← found.2]
    rfl

variable [DecidableEq α]

/-- The pieces of a text, put together again, are the text. -/
theorem splitOn_spec (sep : α) (cs : List α) :
    ∃ piece pieces, splitOn sep cs = piece :: pieces ∧
      cs = piece ++ pieces.flatMap (sep :: ·) ∧ sep ∉ piece ∧ ∀ p ∈ pieces, sep ∉ p := by
  induction cs with
  | nil => exact ⟨[], [], rfl, rfl, by simp, by simp⟩
  | cons c cs ih =>
    obtain ⟨piece, pieces, found, whole, apart, others⟩ := ih
    obtain ⟨first, rest, found', step⟩ := splitBy_cons (· = sep) c cs
    rw [splitOn, found', List.cons.injEq] at found
    obtain ⟨rfl, rfl⟩ := found
    rw [splitOn, step]
    by_cases here : c = sep
    · subst here
      refine ⟨[], first :: rest, by simp, by simp [← whole], by simp, ?_⟩
      simpa using ⟨apart, others⟩
    · refine ⟨c :: first, rest, by simp [here], by simp [← whole], ?_, others⟩
      simpa [@eq_comm _ sep] using ⟨here, apart⟩

/-- What stands before and behind one of the pieces. -/
theorem eq_of_splitOn {sep : α} {cs x : List α} {ps qs : List (List α)}
    (pieces : splitOn sep cs = ps ++ x :: qs) :
    cs = ps.flatMap (· ++ [sep]) ++ (x ++ qs.flatMap (sep :: ·)) := by
  obtain ⟨first, rest, found, whole, apart⟩ := splitOn_spec sep cs
  rw [found] at pieces
  rw [whole]
  clear found whole apart
  induction ps generalizing first rest with
  | nil =>
    obtain ⟨rfl, rfl⟩ := List.cons.inj pieces
    rfl
  | cons p ps ih =>
    obtain ⟨rfl, rfl⟩ := List.cons.inj pieces
    obtain ⟨q, others, more⟩ := List.exists_cons_of_ne_nil (l := ps ++ x :: qs) (by simp)
    have step := ih q others more.symm
    change first ++ (ps ++ x :: qs).flatMap (sep :: ·) = _
    rw [more, List.flatMap_cons, List.cons_append, step]
    simp

theorem sep_not_mem_of_splitOn {sep : α} {cs x : List α} (member : x ∈ splitOn sep cs) :
    sep ∉ x := by
  obtain ⟨first, rest, found, _, apart, others⟩ := splitOn_spec sep cs
  rw [found] at member
  rcases List.mem_cons.mp member with rfl | member
  · exact apart
  · exact others x member

end Elements

/-- The last of the pieces between separators. -/
def lastPart (sep : Char) (cs : List Char) : List Char := (splitOn sep cs).getLastD []

/-- A text ends with its last piece, before which stands nothing or a separator. -/
theorem eq_append_lastPart (sep : Char) (cs : List Char) :
    sep ∉ lastPart sep cs ∧ ∃ front, cs = front ++ lastPart sep cs ∧
      (front = [] ∨ ∃ dir, front = dir ++ [sep]) := by
  obtain ⟨first, rest, found, _⟩ := splitOn_spec sep cs
  obtain ⟨ps, x, pieces⟩ : ∃ ps x, splitOn sep cs = ps ++ [x] :=
    ⟨_, _, (List.dropLast_concat_getLast (by simp [found])).symm⟩
  have last : lastPart sep cs = x := by simp [lastPart, pieces]
  have member : x ∈ splitOn sep cs := by simp [pieces]
  rw [last]
  refine ⟨sep_not_mem_of_splitOn member, ps.flatMap (· ++ [sep]), ?_, ?_⟩
  · simpa using eq_of_splitOn pieces
  · rcases List.eq_nil_or_concat ps with rfl | ⟨init, p, rfl⟩
    · exact .inl rfl
    · exact .inr ⟨init.flatMap (· ++ [sep]) ++ p, by simp⟩

theorem lastPart_of_not_mem {sep : Char} {cs : List Char} (absent : sep ∉ cs) :
    lastPart sep cs = cs := by
  have single : splitOn sep cs = [cs] := by
    apply splitBy_of_fail
    intro c member
    rw [decide_eq_false_iff_not]
    rintro rfl
    exact absent member
  rw [lastPart, single]
  rfl

theorem lastPart_append {sep : Char} (dir : List Char) {cs : List Char} (absent : sep ∉ cs) :
    lastPart sep (dir ++ sep :: cs) = cs := by
  obtain ⟨free, front, whole, shape⟩ := eq_append_lastPart sep (dir ++ sep :: cs)
  generalize lastPart sep (dir ++ sep :: cs) = last at free whole ⊢
  rcases List.append_eq_append_iff.mp whole with ⟨a, rfl, tail⟩ | ⟨a, rfl, rfl⟩
  · cases a with
    | nil =>
      rw [List.nil_append] at tail
      exact absurd (tail ▸ List.mem_cons_self) free
    | cons c a =>
      obtain ⟨rfl, rfl⟩ := List.cons.inj tail
      -- A second separator in front of the last part would be one of `cs`.
      rcases List.eq_nil_or_concat a with rfl | ⟨b, d, rfl⟩
      · rfl
      · rcases shape with none | ⟨dir', ends⟩
        · simp at none
        · have final := congrArg List.getLast? ends
          simp only [List.concat_eq_append, ← List.cons_append, ← List.append_assoc,
            List.getLast?_concat, Option.some.injEq] at final
          simp [final] at absent
  · simp at free

/-- The first word of a text: blanks, characters of a word, and nothing more or another blank. -/
theorem head?_words {u w x : List Char} (blanks : ∀ c ∈ u, Unicode.isSpace c = true)
    (word : ∀ c ∈ w, Unicode.isSpace c = false) (nonempty : w ≠ [])
    (behind : ∀ c ∈ x.head?, Unicode.isSpace c = true) :
    (words (u ++ (w ++ x))).head? = some w := by
  induction u with
  | nil =>
    cases x with
    | nil => simp [words, splitBy_of_fail word, nonempty]
    | cons c x => simp [words, splitBy_append word (behind c rfl), nonempty]
  | cons c u ih =>
    simp only [List.mem_cons, forall_eq_or_imp] at blanks
    have dropped : splitBy Unicode.isSpace (c :: (u ++ (w ++ x))) =
        [] :: splitBy Unicode.isSpace (u ++ (w ++ x)) :=
      splitBy_append (u := []) (by simp) blanks.1
    rw [List.cons_append, words, dropped, List.filter_cons_of_neg (by simp)]
    exact ih blanks.2

theorem contains_iff {part cs : List Char} : contains part cs = true ↔ part <:+: cs := by
  induction cs with
  | nil => simp [contains]
  | cons c cs ih => simp [contains, ih, List.infix_cons_iff]

/-- A text that begins and ends with no blank is trimmed as it is. -/
theorem trim_eq_self {cs : List Char} (first : ∀ c ∈ cs.head?, Unicode.isSpace c = false)
    (last : ∀ c ∈ cs.getLast?, Unicode.isSpace c = false) : trim cs = cs := by
  have drop : ∀ ds : List Char, (∀ c ∈ ds.head?, Unicode.isSpace c = false) →
      ds.dropWhile Unicode.isSpace = ds := by
    intro ds clear
    cases ds with
    | nil => rfl
    | cons d ds => simp [clear d rfl]
  rw [trim, drop cs first, drop cs.reverse (by simpa using last), List.reverse_reverse]

/-- The blanks around a text are trimmed off. -/
theorem trim_padded {u w v : List Char} (before : ∀ c ∈ u, Unicode.isSpace c = true)
    (behind : ∀ c ∈ v, Unicode.isSpace c = true) (some : w ≠ [])
    (plain : ∀ c ∈ w, Unicode.isSpace c = false) : trim (u ++ (w ++ v)) = w := by
  have drop : ∀ ds es : List Char, ds ≠ [] → (∀ c ∈ ds, Unicode.isSpace c = false) →
      (ds ++ es).dropWhile Unicode.isSpace = ds ++ es := by
    intro ds es some clear
    obtain ⟨d, ds, rfl⟩ := List.exists_cons_of_ne_nil some
    simp [clear d List.mem_cons_self]
  rw [trim, List.dropWhile_append_of_pos before, drop w v some plain, List.reverse_append,
    List.dropWhile_append_of_pos (by simpa using behind)]
  have rest := drop w.reverse [] (by simpa using some) (by simpa using plain)
  rw [List.append_nil] at rest
  rw [rest, List.reverse_reverse]

/-- What is left of a text without the blanks at its ends. -/
structure IsTrimmed (cs trimmed : List Char) : Prop where
  blanks : ∃ u v, cs = u ++ (trimmed ++ v) ∧ ∀ c ∈ u ++ v, Unicode.isSpace c = true
  first : ∀ c ∈ trimmed.head?, Unicode.isSpace c = false
  last : ∀ c ∈ trimmed.getLast?, Unicode.isSpace c = false

theorem head?_dropWhile_isSpace {cs : List Char} {c : Char}
    (head : c ∈ (cs.dropWhile Unicode.isSpace).head?) : Unicode.isSpace c = false := by
  have first := List.head?_dropWhile_not Unicode.isSpace cs
  rwa [Option.mem_def.mp head] at first

theorem trim_isTrimmed (cs : List Char) : IsTrimmed cs (trim cs) := by
  have front : cs.takeWhile Unicode.isSpace ++ cs.dropWhile Unicode.isSpace = cs :=
    List.takeWhile_append_dropWhile
  have clear : ∀ c ∈ (cs.dropWhile Unicode.isSpace).head?, Unicode.isSpace c = false :=
    fun c head => head?_dropWhile_isSpace head
  rw [trim]
  generalize cs.dropWhile Unicode.isSpace = ds at front clear
  -- The end is cut off as the beginning of the reversed text.
  have back : ds = (ds.reverse.dropWhile Unicode.isSpace).reverse ++
      (ds.reverse.takeWhile Unicode.isSpace).reverse := by
    rw [← List.reverse_append, List.takeWhile_append_dropWhile, List.reverse_reverse]
  refine ⟨⟨cs.takeWhile Unicode.isSpace, (ds.reverse.takeWhile Unicode.isSpace).reverse, ?_, ?_⟩,
    ?_, ?_⟩
  · rw [← back, front]
  · intro c member
    rcases List.mem_append.mp member with member | member
    · exact List.all_eq_true.mp List.all_takeWhile c member
    · exact List.all_eq_true.mp List.all_takeWhile c (List.mem_reverse.mp member)
  · intro c head
    apply clear
    rw [back]
    cases shape : (ds.reverse.dropWhile Unicode.isSpace).reverse with
    | nil => simp [shape] at head
    | cons d rest => simpa [shape] using head
  · intro c last
    rw [List.getLast?_reverse] at last
    exact head?_dropWhile_isSpace last

end Ripple.Text
