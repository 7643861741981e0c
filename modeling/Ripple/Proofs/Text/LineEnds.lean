import Mathlib.Data.List.Induction
import Ripple.Proofs.Text.Lines
import Ripple.Proofs.Text.Pieces

/-!
Two ways to end a line. A text whose line feeds have no carriage return in front of them is compared
with the same text with one in front of each: the lines are the same and have the same numbers, and
cutting a text and trimming the pieces comes to the same with either.
-/

namespace Ripple

open Point

namespace Text

/-- A text with a carriage return in front of each line feed. -/
def crlf (text : List Char) : List Char :=
  text.flatMap fun c => if c = '\n' then ['\r', '\n'] else [c]

@[simp]
theorem crlf_nil : crlf [] = [] := rfl

@[simp]
theorem crlf_feed (text : List Char) : crlf ('\n' :: text) = '\r' :: '\n' :: crlf text := rfl

theorem crlf_cons {c : Char} (other : c ≠ '\n') (text : List Char) :
    crlf (c :: text) = c :: crlf text := by
  simp [crlf, other]

@[simp]
theorem crlf_append (u v : List Char) : crlf (u ++ v) = crlf u ++ crlf v := List.flatMap_append

theorem feed_mem_crlf_iff {text : List Char} : '\n' ∈ crlf text ↔ '\n' ∈ text := by
  induction text with
  | nil => exact .rfl
  | cons c text ih =>
    by_cases feed : c = '\n'
    · subst feed
      simp
    · rw [crlf_cons feed, List.mem_cons, List.mem_cons, ih]

theorem crlf_eq_self {text : List Char} (single : '\n' ∉ text) : crlf text = text := by
  induction text with
  | nil => rfl
  | cons c text ih =>
    simp only [List.mem_cons, not_or] at single
    rw [crlf_cons (Ne.symm single.1), ih single.2]

/-- Only a text without line feeds becomes such a text. -/
theorem crlf_eq_iff {text w : List Char} (single : '\n' ∉ w) : crlf text = w ↔ text = w := by
  constructor
  · rintro rfl
    exact (crlf_eq_self fun member => single (feed_mem_crlf_iff.mpr member)).symm
  · rintro rfl
    exact crlf_eq_self single

theorem count_crlf (text : List Char) : (crlf text).count '\n' = text.count '\n' := by
  induction text with
  | nil => rfl
  | cons c text ih =>
    by_cases feed : c = '\n'
    · subst feed
      simp [ih]
    · rw [crlf_cons feed, List.count_cons, List.count_cons, ih]

theorem length_le_crlf (text : List Char) : text.length ≤ (crlf text).length := by
  induction text with
  | nil => exact Nat.le_refl _
  | cons c text ih =>
    by_cases feed : c = '\n'
    · subst feed
      simp only [crlf_feed, List.length_cons]
      omega
    · rw [crlf_cons feed, List.length_cons, List.length_cons]
      omega

theorem size_le_crlf (text : List Char) : size text ≤ size (crlf text) := by
  induction text with
  | nil => exact Nat.le_refl _
  | cons c text ih =>
    by_cases feed : c = '\n'
    · subst feed
      simp only [crlf_feed, size_cons]
      omega
    · rw [crlf_cons feed, size_cons, size_cons]
      omega

/-- A source with a carriage return in front of each line feed. -/
def crlfSource (source : String) : String := String.ofList (crlf source.toList)

@[simp]
theorem toList_crlfSource (source : String) : (crlfSource source).toList = crlf source.toList :=
  String.toList_ofList

section Lines

theorem linePieces_cons (c : Char) (text : List Char) : linePieces (c :: text) =
    if c = '\n' then [c] :: linePieces text
    else match linePieces text with
      | piece :: rest => (c :: piece) :: rest
      | [] => [[c]] := rfl

theorem linePieces_crlf (text : List Char) :
    linePieces (crlf text) = (linePieces text).map crlf := by
  induction text with
  | nil => rfl
  | cons c text ih =>
    by_cases feed : c = '\n'
    · subst feed
      simp [linePieces_cons, ih]
    · rw [crlf_cons feed, linePieces_cons, if_neg feed, linePieces_cons, if_neg feed, ih]
      cases linePieces text with
      | nil => simp [crlf_cons feed]
      | cons piece rest => simp [crlf_cons feed]

/-- The end of a line is left out in either form. -/
theorem stripLineEnd_crlf {pieces : List (List Char)} (cut : Cut pieces) {piece : List Char}
    (listed : piece ∈ pieces) (plain : '\r' ∉ piece) :
    stripLineEnd (crlf piece) = stripLineEnd piece := by
  induction cut with
  | nil => simp at listed
  | last _ single =>
    rw [List.mem_singleton.mp listed, crlf_eq_self single]
  | @cons body pieces single _ ih =>
    rcases List.mem_cons.mp listed with rfl | listed
    · have last : body.getLast? ≠ some '\r' := fun last =>
        plain (List.mem_append_left _ (List.mem_of_getLast? last))
      have ends : crlf (body ++ ['\n']) = body ++ ['\r', '\n'] := by simp [crlf_eq_self single]
      rw [ends, stripLineEnd_return, stripLineEnd_feed last]
    · exact ih listed

theorem lines_crlf {text : List Char} (plain : '\r' ∉ text) : lines (crlf text) = lines text := by
  obtain ⟨cut, whole⟩ := linePieces_cut text
  rw [lines, lines, linePieces_crlf, List.map_map]
  refine List.map_congr_left fun piece listed => stripLineEnd_crlf cut listed fun member => plain ?_
  rw [← whole]
  exact List.mem_flatten_of_mem listed member

end Lines

section Pieces

theorem splitBy_crlf {test : Char → Bool} (feed : test '\n' = false) (carriage : test '\r' = false)
    (cs : List Char) : splitBy test (crlf cs) = (splitBy test cs).map crlf := by
  induction cs with
  | nil => rfl
  | cons c cs ih =>
    by_cases isFeed : c = '\n'
    · subst isFeed
      obtain ⟨piece, pieces, found, step⟩ := splitBy_cons test '\n' cs
      rw [found, List.map_cons] at ih
      obtain ⟨_, _, found', step'⟩ := splitBy_cons test '\n' (crlf cs)
      obtain ⟨rfl, rfl⟩ := List.cons.inj (ih.symm.trans found')
      rw [feed, if_neg (by simp)] at step step'
      -- The carriage return and the line feed both go on with the first piece.
      obtain ⟨_, _, found'', step''⟩ := splitBy_cons test '\r' ('\n' :: crlf cs)
      obtain ⟨rfl, rfl⟩ := List.cons.inj (step'.symm.trans found'')
      rw [crlf_feed, step'', step, carriage]
      simp
    · obtain ⟨piece, pieces, found, step⟩ := splitBy_cons test c cs
      rw [found, List.map_cons] at ih
      obtain ⟨_, _, found', step'⟩ := splitBy_cons test c (crlf cs)
      obtain ⟨rfl, rfl⟩ := List.cons.inj (ih.symm.trans found')
      rw [crlf_cons isFeed, step', step]
      split <;> simp [crlf_cons isFeed]

/-- Where lines come to an end anyway, a carriage return adds only an empty piece. -/
theorem mem_splitBy_crlf_iff {test : Char → Bool} (feed : test '\n' = true)
    (carriage : test '\r' = true) (cs : List Char) {x : List Char} (some : x ≠ []) :
    x ∈ splitBy test (crlf cs) ↔ x ∈ splitBy test cs := by
  -- The first piece may still grow, so it is compared on its own.
  suffices ∃ piece pieces pieces', splitBy test cs = piece :: pieces ∧
      splitBy test (crlf cs) = piece :: pieces' ∧ (x ∈ pieces' ↔ x ∈ pieces) by
    obtain ⟨piece, pieces, pieces', found, found', others⟩ := this
    rw [found, found', List.mem_cons, List.mem_cons, others]
  induction cs with
  | nil => exact ⟨[], [], [], rfl, rfl, .rfl⟩
  | cons c cs ih =>
    obtain ⟨piece, pieces, pieces', found, found', others⟩ := ih
    obtain ⟨_, _, again, step⟩ := splitBy_cons test c cs
    obtain ⟨rfl, rfl⟩ := List.cons.inj (found.symm.trans again)
    by_cases isFeed : c = '\n'
    · subst isFeed
      obtain ⟨_, _, again', step'⟩ := splitBy_cons test '\n' (crlf cs)
      obtain ⟨rfl, rfl⟩ := List.cons.inj (found'.symm.trans again')
      rw [feed, if_pos rfl] at step step'
      obtain ⟨_, _, again'', step''⟩ := splitBy_cons test '\r' ('\n' :: crlf cs)
      obtain ⟨rfl, rfl⟩ := List.cons.inj (step'.symm.trans again'')
      rw [carriage, if_pos rfl] at step''
      exact ⟨[], _, _, step, step'', by simp [some, others]⟩
    · obtain ⟨_, _, again', step'⟩ := splitBy_cons test c (crlf cs)
      obtain ⟨rfl, rfl⟩ := List.cons.inj (found'.symm.trans again')
      rw [crlf_cons isFeed]
      by_cases ends : test c = true
      · rw [if_pos ends] at step step'
        exact ⟨[], _, _, step, step', by simp [others]⟩
      · rw [if_neg ends] at step step'
        exact ⟨_, _, _, step, step', others⟩

theorem isSpace_carriage : Unicode.isSpace '\r' = true := by decide +kernel

theorem isSpace_feed : Unicode.isSpace '\n' = true := by decide +kernel

theorem dropWhile_crlf (cs : List Char) :
    (crlf cs).dropWhile Unicode.isSpace = crlf (cs.dropWhile Unicode.isSpace) := by
  induction cs with
  | nil => rfl
  | cons c cs ih =>
    by_cases isFeed : c = '\n'
    · subst isFeed
      simp [isSpace_carriage, isSpace_feed, ih]
    · rw [crlf_cons isFeed, List.dropWhile_cons, List.dropWhile_cons]
      split
      · exact ih
      · rw [crlf_cons isFeed]

theorem trimEnd_crlf (cs : List Char) : trimEnd (crlf cs) = crlf (trimEnd cs) := by
  rw [trimEnd, trimEnd]
  induction cs using List.reverseRecOn with
  | nil => rfl
  | append_singleton cs c ih =>
    by_cases isFeed : c = '\n'
    · subst isFeed
      simp [isSpace_carriage, isSpace_feed, ih]
    · rw [crlf_append, crlf_cons isFeed, crlf_nil, List.reverse_append, List.reverse_append,
        List.reverse_singleton, List.singleton_append, List.singleton_append, List.dropWhile_cons,
        List.dropWhile_cons]
      split
      · exact ih
      · simp [crlf_cons isFeed]

theorem trim_crlf (cs : List Char) : trim (crlf cs) = crlf (trim cs) := by
  rw [trim, dropWhile_crlf]
  exact trimEnd_crlf _

/-- A part without line ends begins a text in either form. -/
theorem isPrefixOf_crlf {part : List Char} (feed : '\n' ∉ part) (carriage : '\r' ∉ part)
    (cs : List Char) : part.isPrefixOf (crlf cs) = part.isPrefixOf cs := by
  induction part generalizing cs with
  | nil => simp
  | cons d part ih =>
    simp only [List.mem_cons, not_or] at feed carriage
    cases cs with
    | nil => rfl
    | cons c cs =>
      by_cases isFeed : c = '\n'
      · subst isFeed
        have noFeed : (d == '\n') = false := by simpa using Ne.symm feed.1
        have noCarriage : (d == '\r') = false := by simpa using Ne.symm carriage.1
        simp [List.isPrefixOf, noFeed, noCarriage]
      · rw [crlf_cons isFeed, List.isPrefixOf, List.isPrefixOf, ih feed.2 carriage.2]

theorem afterLast_crlf {part : List Char} (some : part ≠ []) (feed : '\n' ∉ part)
    (carriage : '\r' ∉ part) (cs : List Char) :
    afterLast part (crlf cs) = crlf (afterLast part cs) := by
  suffices general : ∀ best rest, afterLast.go part (crlf best) (crlf rest) =
      crlf (afterLast.go part best rest) from general cs cs
  intro best rest
  induction rest generalizing best with
  | nil => rfl
  | cons c rest ih =>
    have begins := isPrefixOf_crlf feed carriage (c :: rest)
    obtain ⟨d, part, rfl⟩ := List.exists_cons_of_ne_nil some
    simp only [List.mem_cons, not_or] at feed carriage
    by_cases isFeed : c = '\n'
    · subst isFeed
      -- The part begins neither at the carriage return nor at the line feed.
      have noFeed : (d == '\n') = false := by simpa using Ne.symm feed.1
      have noCarriage : (d == '\r') = false := by simpa using Ne.symm carriage.1
      simp [afterLast.go, List.isPrefixOf, noFeed, noCarriage, ih]
    · rw [crlf_cons isFeed] at begins ⊢
      rw [afterLast.go, afterLast.go, begins]
      split
      next here =>
        obtain ⟨behind, shape⟩ := List.isPrefixOf_iff_prefix.mp here
        have whole : c :: crlf rest = (d :: part) ++ crlf behind := by
          rw [← crlf_cons isFeed, ← shape, crlf_append, crlf_eq_self (by simp [feed])]
        rw [whole, ← shape, List.drop_left, List.drop_left, ih]
      next => exact ih best

end Pieces

end Text

namespace LineIndex

open Text

theorem feedEnds_append (u v : List Char) (offset : Nat) :
    feedEnds (u ++ v) offset = feedEnds u offset ++ feedEnds v (offset + size u) := by
  induction u generalizing offset with
  | nil => simp [feedEnds]
  | cons c u ih =>
    simp only [List.cons_append, feedEnds, ih, size_cons, Nat.add_assoc]
    split <;> rfl

theorem le_of_mem_feedEnds {text : List Char} {offset x : Nat} (member : x ∈ feedEnds text offset) :
    x ≤ offset + size text := by
  induction text generalizing offset with
  | nil => simp [feedEnds] at member
  | cons c text ih =>
    simp only [feedEnds] at member
    rw [size_cons]
    split at member
    · rcases List.mem_cons.mp member with rfl | member
      · omega
      · have := ih member
        omega
    · have := ih member
      omega

/-- An offset behind some characters, and not behind the next one, is on the line that their line
feeds lead to. -/
theorem lineOf_append {u v : List Char} {offset : Nat} (behind : size u ≤ offset)
    (before : ∀ c w, v = c :: w → offset < size u + c.utf8Size) :
    (ofText (u ++ v)).lineOf offset = u.count '\n' + 1 := by
  -- All line feeds of the first part count, and none of the second.
  have first : (feedEnds u 0).countP (· ≤ offset) = u.count '\n' := by
    rw [← length_feedEnds u 0, List.countP_eq_length]
    intro x member
    have := le_of_mem_feedEnds member
    simp only [decide_eq_true_eq]
    omega
  have second : (feedEnds v (0 + size u)).countP (· ≤ offset) = 0 := by
    rw [List.countP_eq_zero]
    intro x member
    cases v with
    | nil => simp [feedEnds] at member
    | cons c w =>
      have next := before c w rfl
      simp only [feedEnds] at member
      simp only [decide_eq_true_eq, Nat.not_le]
      split at member
      · rcases List.mem_cons.mp member with rfl | member
        · omega
        · have := lt_of_mem_feedEnds member
          omega
      · have := lt_of_mem_feedEnds member
        omega
  rw [lineOf_eq, feedEnds_append, List.countP_append, first, second, Nat.add_zero]

/-- Behind the same characters the same line is counted in either form. -/
theorem lineOf_crlf (u v : List Char) : (ofText (crlf (u ++ v))).lineOf (size (crlf u)) =
    (ofText (u ++ v)).lineOf (size u) := by
  rw [crlf_append, lineOf_append (Nat.le_refl _), lineOf_append (Nat.le_refl _), count_crlf]
  · intro c w _
    have := c.utf8Size_pos
    omega
  · intro c w _
    have := c.utf8Size_pos
    omega

/-- The last byte of some characters is on the same line in either form. -/
theorem lineOf_last_crlf (u : List Char) (c : Char) (v : List Char) :
    (ofText (crlf (u ++ c :: v))).lineOf (size (crlf (u ++ [c])) - 1) =
      (ofText (u ++ c :: v)).lineOf (size (u ++ [c]) - 1) := by
  have last : ∀ (u : List Char) (c : Char) (v : List Char),
      (ofText (u ++ c :: v)).lineOf (size (u ++ [c]) - 1) = u.count '\n' + 1 := by
    intro u c v
    have positive := c.utf8Size_pos
    refine lineOf_append ?_ fun d w shape => ?_
    · simp only [size_append, size_cons, size_nil]
      omega
    · obtain ⟨rfl, rfl⟩ := List.cons.inj shape
      simp only [size_append, size_cons, size_nil]
      omega
  rw [last u c v]
  by_cases feed : c = '\n'
  · -- The line feed is the last of the two characters that end the line.
    subst feed
    have shape : ∀ w, crlf (u ++ '\n' :: w) = (crlf u ++ ['\r']) ++ '\n' :: crlf w := by simp
    rw [shape v, shape [], crlf_nil, last]
    simp [count_crlf]
  · rw [crlf_append, crlf_append, crlf_cons feed, crlf_cons feed, crlf_nil, last, count_crlf]

end LineIndex

end Ripple
