import Mathlib.Data.List.Zip
import Ripple.Proofs.Regex.Points
import Ripple.Text.Lines

/-!
Two ways to number the lines of a text. One counts the line feeds before an offset, the other cuts
the text into lines. They agree: an offset is counted to the line whose characters, its end
included, it falls on, and the end of a text without a last line feed to the last line.
-/

namespace Ripple

open Point

namespace LineIndex

/-- The offsets behind the line feeds of a text that begins at the given offset. -/
def feedEnds : List Char → Nat → List Nat
  | [], _ => []
  | c :: cs, offset =>
    let next := offset + c.utf8Size
    if c = '\n' then next :: feedEnds cs next else feedEnds cs next

theorem toList_addStarts (text : List Char) (offset : Nat) (starts : Array Nat) :
    (addStarts text offset starts).toList = starts.toList ++ feedEnds text offset := by
  induction text generalizing offset starts with
  | nil => simp [addStarts, feedEnds]
  | cons c text ih =>
    simp only [addStarts, feedEnds, ih]
    split <;> simp

theorem lt_of_mem_feedEnds {text : List Char} {offset x : Nat} (member : x ∈ feedEnds text offset) :
    offset < x := by
  induction text generalizing offset with
  | nil => simp [feedEnds] at member
  | cons c text ih =>
    have positive := c.utf8Size_pos
    simp only [feedEnds] at member
    split at member
    · rcases List.mem_cons.mp member with rfl | member
      · omega
      · have := ih member
        omega
    · have := ih member
      omega

theorem feedEnds_ascends (text : List Char) (offset : Nat) :
    (feedEnds text offset).Pairwise (· < ·) := by
  induction text generalizing offset with
  | nil => exact .nil
  | cons c text ih =>
    simp only [feedEnds]
    split
    · exact List.pairwise_cons.mpr ⟨fun x member => lt_of_mem_feedEnds member, ih _⟩
    · exact ih _

theorem length_feedEnds (text : List Char) (offset : Nat) :
    (feedEnds text offset).length = text.count '\n' := by
  induction text generalizing offset with
  | nil => rfl
  | cons c text ih =>
    simp only [feedEnds, List.count_cons, beq_iff_eq]
    split <;> simp [ih]

/-- A list whose first `k` entries are the ones that are at most `x` has `k` of them. -/
theorem countP_le_eq {l : List Nat} {x k : Nat} (fits : k ≤ l.length)
    (below : ∀ i (h : i < l.length), i < k → l[i] ≤ x)
    (above : ∀ i (h : i < l.length), k ≤ i → x < l[i]) : l.countP (· ≤ x) = k := by
  have first : (l.take k).countP (· ≤ x) = k := by
    rw [List.countP_eq_length.mpr, List.length_take, Nat.min_eq_left fits]
    intro y member
    obtain ⟨i, inside, rfl⟩ := List.mem_take_iff_getElem.mp member
    simpa using below i (by omega) (by omega)
  have rest : (l.drop k).countP (· ≤ x) = 0 := by
    rw [List.countP_eq_zero]
    intro y member
    obtain ⟨i, inside, rfl⟩ := List.mem_drop_iff_getElem.mp member
    simpa using above (k + i) (by omega) (by omega)
  rw [← List.take_append_drop k l, List.countP_append, first, rest, Nat.add_zero]

theorem getElem_le_of_ascends {l : List Nat} (sorted : l.Pairwise (· < ·)) {i j : Nat}
    (inside : j < l.length) (le : i ≤ j) : l[i] ≤ l[j] := by
  rcases Nat.lt_or_eq_of_le le with less | rfl
  · exact Nat.le_of_lt (List.pairwise_iff_getElem.mp sorted i j (by omega) inside less)
  · exact Nat.le_refl _

/-- What a search in a list tells of it: where an entry stands, or which entries are smaller and which
are larger. -/
inductive Lookup.Of (l : List Nat) (x : Nat) : Lookup → Prop
  | hit {i : Nat} (inside : i < l.length) : l[i] = x → Of l x (.hit i)
  | miss {i : Nat} : i ≤ l.length → (∀ j (h : j < l.length), j < i → l[j] < x) →
      (∀ j (h : j < l.length), i ≤ j → x < l[j]) → Of l x (.miss i)

/-- Halving finds an entry if there is one: those before `lo` are smaller, and those from `hi` on are
larger. -/
theorem search_of {starts : Array Nat} (sorted : starts.toList.Pairwise (· < ·)) {x : Nat}
    {bound lo hi : Nat} (enough : hi ≤ lo + bound) (ordered : lo ≤ hi) (fits : hi ≤ starts.size)
    (below : ∀ i (h : i < starts.size), i < lo → starts[i] < x)
    (above : ∀ i (h : i < starts.size), hi ≤ i → x < starts[i]) :
    (search starts x bound lo hi).Of starts.toList x := by
  induction bound generalizing lo hi with
  | zero =>
    obtain rfl : lo = hi := by omega
    exact .miss fits below above
  | succ bound ih =>
    rw [search]
    split
    next =>
      dsimp only
      have inside : (lo + hi) / 2 < starts.size := by omega
      have entry : starts.getD ((lo + hi) / 2) 0 = starts[(lo + hi) / 2] := by
        simp [Array.getD, inside]
      rw [entry]
      split
      next same => exact .hit inside same
      next other =>
        split
        next small =>
          -- What stands before the middle is smaller still.
          refine ih ?_ ?_ fits (fun i h before => ?_) above
          · omega
          · omega
          · have upTo := getElem_le_of_ascends sorted inside (Nat.le_of_lt_succ before)
            exact Nat.lt_of_le_of_lt upTo small
        next large =>
          -- What stands behind the middle is larger still.
          have greater : x < starts[(lo + hi) / 2] := by omega
          refine ih ?_ ?_ ?_ below (fun i h behind => ?_)
          · omega
          · omega
          · omega
          · exact Nat.lt_of_lt_of_le greater (getElem_le_of_ascends sorted h behind)
    next =>
      obtain rfl : lo = hi := by omega
      exact .miss fits below above

/-- As many entries as the index of a hit, and one more, are at most as large as what is looked for. -/
theorem countP_of_hit {l : List Nat} (sorted : l.Pairwise (· < ·)) {i : Nat} (inside : i < l.length) :
    l.countP (· ≤ l[i]) = i + 1 := by
  refine countP_le_eq inside (fun j h before => ?_) (fun j h behind => ?_)
  · exact getElem_le_of_ascends sorted inside (Nat.le_of_lt_succ before)
  · exact List.pairwise_iff_getElem.mp sorted i j inside h behind

/-- The line of an offset is one more than the number of line feeds before it. -/
theorem lineOf_eq (text : List Char) (offset : Nat) :
    (ofText text).lineOf offset = (feedEnds text 0).countP (· ≤ offset) + 1 := by
  have starts : (ofText text).starts.toList = 0 :: feedEnds text 0 := toList_addStarts text 0 #[0]
  have sorted : (ofText text).starts.toList.Pairwise (· < ·) := by
    rw [starts]
    exact List.pairwise_cons.mpr ⟨fun x member => lt_of_mem_feedEnds member, feedEnds_ascends text 0⟩
  have counted : (ofText text).starts.toList.countP (· ≤ offset) =
      (feedEnds text 0).countP (· ≤ offset) + 1 := by
    rw [starts, List.countP_cons_of_pos (by simp)]
  have told : (search (ofText text).starts offset (ofText text).starts.size 0
      (ofText text).starts.size).Of (ofText text).starts.toList offset :=
    search_of sorted (Nat.le_add_left _ _) (Nat.zero_le _) (Nat.le_refl _)
      (fun i h none => absurd none (Nat.not_lt_zero i)) (fun i h behind => absurd h (by omega))
  rw [← counted, lineOf]
  generalize search _ offset _ _ _ = answer at told ⊢
  -- A line that begins at the offset is counted, one that would begin there is not.
  cases told with
  | hit inside same => rw [← same, countP_of_hit sorted inside]
  | miss fits below above =>
    exact (countP_le_eq fits (fun i h before => Nat.le_of_lt (below i h before)) above).symm

theorem lineOf_mono (text : List Char) {offset offset' : Nat} (le : offset ≤ offset') :
    (ofText text).lineOf offset ≤ (ofText text).lineOf offset' := by
  rw [lineOf_eq, lineOf_eq]
  apply Nat.succ_le_succ
  apply List.countP_mono_left
  intro x _
  simp only [decide_eq_true_eq]
  omega

theorem countP_feedEnds_le (text : List Char) (offset limit : Nat) :
    (feedEnds text offset).countP (· ≤ limit) ≤ text.count '\n' := by
  rw [← length_feedEnds text offset]
  exact List.countP_le_length

/-- More line feeds than there are before one of them come to an end before an offset exactly if that
one does. -/
theorem count_lt_feedEnds_iff (pre post : List Char) (offset limit : Nat) :
    pre.count '\n' < (feedEnds (pre ++ '\n' :: post) offset).countP (· ≤ limit) ↔
      offset + size pre + 1 ≤ limit := by
  induction pre generalizing offset with
  | nil =>
    have feed : '\n'.utf8Size = 1 := rfl
    simp only [List.nil_append, feedEnds, feed, if_true, List.count_nil, List.countP_pos_iff,
      List.mem_cons, size_nil]
    constructor
    · rintro ⟨x, rfl | later, le⟩
      · simpa using le
      · have := lt_of_mem_feedEnds later
        have : x ≤ limit := by simpa using le
        omega
    · intro le
      exact ⟨offset + 1, .inl rfl, by simpa using le⟩
  | cons c pre ih =>
    have rest := ih (offset + c.utf8Size)
    simp only [List.cons_append, feedEnds, List.count_cons, beq_iff_eq, size_cons]
    split
    next =>
      -- A line feed that comes too late is followed by none in time.
      by_cases early : offset + c.utf8Size ≤ limit
      · rw [List.countP_cons_of_pos (by simpa using early)]
        omega
      · rw [List.countP_cons_of_neg (by simpa using early)]
        omega
    next => omega

end LineIndex

/-- A line, between what precedes it in the text and the line feed that ends it, with the carriage
return in front of that if there is one. The last line may have no end. -/
structure Line where
  before : List Char
  content : List Char
  ending : List Char

namespace Line

def number (l : Line) : Nat := l.before.count '\n' + 1

/-- The offset of the first byte of a line. -/
def start (l : Line) : Nat := size l.before

/-- The offset behind the last byte of a line. -/
def stop (l : Line) : Nat := size (l.before ++ (l.content ++ l.ending))

/-- How a line comes to its end, by what follows it. -/
inductive Ends (content : List Char) : List Char → List Char → Prop
  | feed {behind : List Char} : content.getLast? ≠ some '\r' → Ends content ['\n'] behind
  | returnFeed {behind : List Char} : Ends content ['\r', '\n'] behind
  | text : content ≠ [] → Ends content [] []

/-- A line of a text. -/
structure Of (text : List Char) (l : Line) : Prop where
  begins : l.before = [] ∨ ∃ earlier, l.before = earlier ++ ['\n']
  single : '\n' ∉ l.content
  ends : ∃ behind, text = l.before ++ (l.content ++ (l.ending ++ behind)) ∧
    Ends l.content l.ending behind

/-- The line of a piece of a text. -/
def cut (before piece : List Char) : Line :=
  ⟨before, Text.stripLineEnd piece, piece.drop (Text.stripLineEnd piece).length⟩

/-- The lines of the pieces of a text. -/
def ofPieces : List Char → List (List Char) → List Line
  | _, [] => []
  | before, piece :: pieces => cut before piece :: ofPieces (before ++ piece) pieces

/-- The lines of a text, in ascending order. -/
def all (text : List Char) : List Line := ofPieces [] (Text.linePieces text)

end Line

namespace Text

/-- Pieces of a text between line feeds. -/
inductive Cut : List (List Char) → Prop
  | nil : Cut []
  | last {body : List Char} : body ≠ [] → '\n' ∉ body → Cut [body]
  | cons {body : List Char} {pieces : List (List Char)} : '\n' ∉ body → Cut pieces →
      Cut ((body ++ ['\n']) :: pieces)

theorem linePieces_cut (text : List Char) :
    Cut (linePieces text) ∧ (linePieces text).flatten = text := by
  induction text with
  | nil => exact ⟨.nil, rfl⟩
  | cons c text ih =>
    -- Pieces are cut from the end of the text on: a character other than a line feed goes in front
    -- of the first piece, or becomes the last one.
    obtain ⟨cut, whole⟩ := ih
    rw [linePieces] at cut whole
    rw [linePieces, List.foldr_cons]
    split
    next feed =>
      subst feed
      exact ⟨by simpa using Cut.cons List.not_mem_nil cut, by simp [whole]⟩
    next other =>
      have fresh : ∀ {body : List Char}, '\n' ∉ body → '\n' ∉ c :: body := by
        intro body single
        simp [single, Ne.symm other]
      generalize List.foldr _ _ text = pieces at cut whole
      cases cut with
      | nil => exact ⟨.last (by simp) (fresh List.not_mem_nil), by simpa using whole⟩
      | last some single => exact ⟨.last (by simp) (fresh single), by simpa using whole⟩
      | @cons body pieces single cut =>
        exact ⟨.cons (fresh single) cut, by simpa using whole⟩

theorem stripLineEnd_feed {content : List Char} (plain : content.getLast? ≠ some '\r') :
    stripLineEnd (content ++ ['\n']) = content := by
  rw [List.getLast?_eq_head?_reverse] at plain
  -- The end of a line is looked at from behind.
  have shape : (content ++ ['\n']).reverse = '\n' :: content.reverse := by simp
  rw [stripLineEnd, shape]
  split
  next rest same =>
    have same := (List.cons.inj same).2
    simp [same] at plain
  next rest _ same => rw [← (List.cons.inj same).2, List.reverse_reverse]
  next other => exact absurd rfl (other _)

theorem stripLineEnd_return (content : List Char) :
    stripLineEnd (content ++ ['\r', '\n']) = content := by
  simp [stripLineEnd]

theorem stripLineEnd_of_single {content : List Char} (single : '\n' ∉ content) :
    stripLineEnd content = content := by
  have absent : ∀ rest, content.reverse ≠ '\n' :: rest := by
    intro rest same
    apply single
    rw [← List.mem_reverse, same]
    exact List.mem_cons_self
  rw [stripLineEnd]
  split
  next same => exact absurd same (absent _)
  next same => exact absurd same (absent _)
  next => rfl

theorem eq_of_feed {u v r s : List Char} (plainU : '\n' ∉ u) (plainV : '\n' ∉ v)
    (same : u ++ '\n' :: r = v ++ '\n' :: s) : u = v := by
  rcases List.append_eq_append_iff.mp same with ⟨a, rfl, tail⟩ | ⟨a, rfl, tail⟩
  · cases a with
    | nil => simp
    | cons c a =>
      obtain rfl : '\n' = c := (List.cons.inj tail).1
      simp at plainV
  · cases a with
    | nil => simp
    | cons c a =>
      obtain rfl : '\n' = c := (List.cons.inj tail).1
      simp at plainU

end Text

namespace Line

open Text

variable {before content ending behind body : List Char} {l : Line}

/-- A text begins with only one line. -/
theorem cut_unique (single : '\n' ∉ content) (ends : Ends content ending behind)
    (plain : '\n' ∉ body) {rest : List Char}
    (same : body ++ '\n' :: rest = content ++ (ending ++ behind)) :
    ⟨before, content, ending⟩ = cut before (body ++ ['\n']) := by
  cases ends with
  | feed clear =>
    obtain rfl := eq_of_feed plain single same
    simp [cut, stripLineEnd_feed clear]
  | returnFeed =>
    have carried : '\n' ∉ content ++ ['\r'] := by simp [single]
    obtain rfl := eq_of_feed plain carried (by simpa using same)
    simp [cut, stripLineEnd_return]
  | text =>
    -- Nothing follows a line without an end, but here a line feed does.
    rw [List.nil_append, List.append_nil] at same
    exact absurd (by simp [← same]) single

-- A carriage return belongs to the end of a line, whatever else the line consists of.
theorem cut_of (begins : before = [] ∨ ∃ earlier, before = earlier ++ ['\n']) (plain : '\n' ∉ body)
    (rest : List Char) : (cut before (body ++ ['\n'])).Of (before ++ (body ++ '\n' :: rest)) := by
  by_cases clear : body.getLast? = some '\r'
  · obtain ⟨content, rfl⟩ := List.getLast?_eq_some_iff.mp clear
    have strip := stripLineEnd_return content
    simp only [List.append_assoc, List.cons_append, List.nil_append] at strip ⊢
    rw [cut, strip]
    refine ⟨begins, fun member => plain (List.mem_append_left _ member), rest, ?_, ?_⟩
    · simp
    · simpa using Ends.returnFeed
  · rw [cut, stripLineEnd_feed clear]
    refine ⟨begins, plain, rest, ?_, ?_⟩
    · simp
    · simpa using Ends.feed clear

/-- A line behind the beginning of a text begins behind the first line feed of that text. -/
theorem piece_of_feed {y rest rest' : List Char} (plain : '\n' ∉ body)
    (same : body ++ '\n' :: rest = (y ++ ['\n']) ++ rest') : body ++ ['\n'] <+: y ++ ['\n'] := by
  rw [List.append_assoc, List.append_eq_append_iff] at same
  rcases same with ⟨a, rfl, tail⟩ | ⟨a, rfl, tail⟩
  · cases a with
    | nil => simp
    | cons c a =>
      obtain rfl : '\n' = c := (List.cons.inj tail).1
      exact ⟨a ++ ['\n'], by simp⟩
  · cases a with
    | nil => simp
    | cons c a =>
      obtain rfl : '\n' = c := (List.cons.inj tail).1
      simp at plain

/-- A line at or behind some place of a text, seen from there. -/
theorem Of.seen_from {text : List Char} (line : l.Of (before ++ text)) (later : before <+: l.before) :
    ∃ x behind, l.before = before ++ x ∧ text = x ++ (l.content ++ (l.ending ++ behind)) ∧
      (x = [] ∨ ∃ y, x = y ++ ['\n']) ∧ Ends l.content l.ending behind := by
  obtain ⟨x, shape⟩ := later
  obtain ⟨begins, _, behind, whole, ends⟩ := line
  rw [← shape, List.append_assoc] at whole
  refine ⟨x, behind, shape.symm, List.append_cancel_left whole, ?_, ends⟩
  rw [← shape] at begins
  rcases List.eq_nil_or_concat' x with none | ⟨y, c, rfl⟩
  · exact .inl none
  · rcases begins with none | ⟨earlier, last⟩
    · simp at none
    · rw [← List.append_assoc] at last
      exact .inr ⟨y, by rw [(List.append_inj' last rfl).2]⟩

/-- No line begins at the end of a text. -/
theorem Of.not_at_end (line : l.Of before) : ¬ before <+: l.before := by
  intro later
  rw [← List.append_nil before] at line
  obtain ⟨x, behind, _, whole, _, ends⟩ := line.seen_from later
  -- Even the last line, which may lack an end, has a character.
  simp only [List.nil_eq, List.append_eq_nil_iff] at whole
  obtain ⟨_, content, ending, _⟩ := whole
  rw [content, ending] at ends
  cases ends
  contradiction

/-- A text without a line feed is one line. -/
theorem of_last_iff (begins : before = [] ∨ ∃ earlier, before = earlier ++ ['\n'])
    (some : body ≠ []) (plain : '\n' ∉ body) :
    l.Of (before ++ body) ∧ before <+: l.before ↔ l = cut before body := by
  rw [cut, stripLineEnd_of_single plain, List.drop_length]
  constructor
  · rintro ⟨line, later⟩
    obtain ⟨x, behind, shape, whole, starts, ends⟩ := line.seen_from later
    obtain ⟨_, content, ending⟩ := l
    -- Without a line feed, there is neither another beginning nor another end.
    rcases starts with rfl | ⟨y, rfl⟩
    · cases ends with
      | feed => simp [whole] at plain
      | returnFeed => simp [whole] at plain
      | text =>
        rw [List.append_nil] at shape
        simp only [List.nil_append, List.append_nil] at whole
        obtain rfl : _ = before := shape
        rw [whole]
    · simp [whole] at plain
  · rintro rfl
    exact ⟨⟨begins, plain, [], by simp, .text some⟩, List.prefix_refl _⟩

/-- A line begins with a piece of the text, or else behind the line feed of that piece. -/
theorem of_piece_iff (begins : before = [] ∨ ∃ earlier, before = earlier ++ ['\n'])
    (plain : '\n' ∉ body) (rest : List Char) :
    l.Of (before ++ (body ++ '\n' :: rest)) ∧ before <+: l.before ↔
      l = cut before (body ++ ['\n']) ∨
        l.Of (before ++ (body ++ '\n' :: rest)) ∧ before ++ (body ++ ['\n']) <+: l.before := by
  constructor
  · rintro ⟨line, later⟩
    obtain ⟨x, behind, shape, whole, starts, ends⟩ := line.seen_from later
    rcases starts with rfl | ⟨y, rfl⟩
    · refine .inl ?_
      rw [List.append_nil] at shape
      obtain ⟨_, content, ending⟩ := l
      obtain rfl : _ = before := shape
      exact cut_unique line.single ends plain whole
    · refine .inr ⟨line, ?_⟩
      rw [shape, List.prefix_append_right_inj]
      exact piece_of_feed plain whole
  · rintro (rfl | ⟨line, later⟩)
    · exact ⟨cut_of begins plain rest, List.prefix_refl _⟩
    · exact ⟨line, (List.prefix_append _ _).trans later⟩

/-- The pieces of a text are cut into its lines. -/
theorem mem_ofPieces_iff {pieces : List (List Char)} (cut : Cut pieces)
    (begins : before = [] ∨ ∃ earlier, before = earlier ++ ['\n']) :
    l ∈ ofPieces before pieces ↔ l.Of (before ++ pieces.flatten) ∧ before <+: l.before := by
  induction cut generalizing before with
  | nil =>
    rw [List.flatten_nil, List.append_nil]
    constructor
    · exact fun member => absurd member List.not_mem_nil
    · rintro ⟨line, later⟩
      exact absurd later line.not_at_end
  | @last body some plain =>
    rw [List.flatten_singleton, of_last_iff begins some plain, ofPieces, ofPieces,
      List.mem_singleton]
  | @cons body pieces plain cut ih =>
    have next := @ih (before ++ (body ++ ['\n'])) (.inr ⟨before ++ body, by simp⟩)
    have text : before ++ (body ++ ['\n']) ++ pieces.flatten =
        before ++ (body ++ '\n' :: pieces.flatten) := by simp
    rw [text] at next
    rw [ofPieces, List.mem_cons, next, ← of_piece_iff begins plain, List.flatten_cons,
      List.append_assoc, List.singleton_append]

/-- Cutting a text gives all its lines. -/
theorem mem_all_iff {text : List Char} : l ∈ all text ↔ l.Of text := by
  obtain ⟨cut, whole⟩ := linePieces_cut text
  rw [all, mem_ofPieces_iff cut (.inl rfl), whole]
  simp

theorem map_content_ofPieces (before : List Char) (pieces : List (List Char)) :
    (ofPieces before pieces).map (·.content) = pieces.map stripLineEnd := by
  induction pieces generalizing before with
  | nil => rfl
  | cons piece pieces ih =>
    rw [ofPieces, List.map_cons, ih, List.map_cons]
    rfl

theorem map_number_ofPieces {pieces : List (List Char)} (cut : Cut pieces) (before : List Char) :
    (ofPieces before pieces).map number =
      List.range' (before.count '\n' + 1) (ofPieces before pieces).length := by
  induction cut generalizing before with
  | nil => rfl
  | last => rfl
  | @cons body pieces plain cut ih =>
    have count : (before ++ (body ++ ['\n'])).count '\n' = before.count '\n' + 1 := by
      simp [List.count_append, List.count_eq_zero.mpr plain]
    rw [ofPieces, List.map_cons, ih, count, List.length_cons, List.range'_succ]
    rfl

theorem map_number_all (text : List Char) :
    (all text).map number = List.range' 1 (all text).length :=
  map_number_ofPieces (linePieces_cut text).1 []

/-- Counting the lines of a text gives each one its number. -/
theorem zipIdx_lines_eq (text : List Char) :
    (lines text).zipIdx 1 = (all text).map fun l => (l.content, l.number) := by
  have contents : (all text).map (·.content) = lines text := map_content_ofPieces [] _
  calc (lines text).zipIdx 1
      = ((all text).map (·.content)).zip ((all text).map number) := by
        rw [List.zipIdx_eq_zip_range', ← contents, List.length_map, map_number_all]
    _ = (all text).map fun l => (l.content, l.number) := List.zip_map'

theorem zipIdx_lines (text : List Char) :
    ((lines text).zipIdx 1).map (fun l => (l.2, l.1)) =
      (all text).map fun l => (l.number, l.content) := by
  rw [zipIdx_lines_eq, List.map_map]
  rfl

theorem all_ascends (text : List Char) : (all text).Pairwise fun a b => a.number < b.number := by
  have numbers : ((all text).map number).Pairwise (· < ·) := by
    rw [map_number_all]
    exact List.pairwise_lt_range'
  exact List.pairwise_map.mp numbers

section Numbering

open LineIndex

variable {text : List Char}

/-- The lines up to that of an offset are those that begin at the offset or before. -/
theorem Of.number_le_lineOf_iff (line : l.Of text) (offset : Nat) :
    l.number ≤ (ofText text).lineOf offset ↔ l.start ≤ offset := by
  obtain ⟨begins, _, behind, whole, _⟩ := line
  rw [lineOf_eq, number, start]
  -- Only the first line has no line feed before it that could be counted.
  rcases begins with none | ⟨earlier, shape⟩
  · simp [none]
  · have counted := count_lt_feedEnds_iff earlier (l.content ++ (l.ending ++ behind)) 0 offset
    rw [shape] at whole
    simp only [List.append_assoc, List.cons_append, List.nil_append] at whole
    rw [← whole] at counted
    have feed : size ['\n'] = 1 := rfl
    rw [shape, size_append, feed, List.count_append, List.count_singleton_self]
    omega

/-- The line feed that ends a line tells the offsets on it from those behind it. -/
theorem countP_feedEnds_le_iff (before : List Char) {rest : List Char} (single : '\n' ∉ content)
    (plain : '\n' ∉ rest) (behind : List Char) (offset : Nat) :
    (feedEnds (before ++ (content ++ (rest ++ '\n' :: behind))) 0).countP (· ≤ offset) ≤
      before.count '\n' ↔ offset < size (before ++ (content ++ (rest ++ ['\n']))) := by
  have counted := count_lt_feedEnds_iff (before ++ (content ++ rest)) behind 0 offset
  have feeds : (before ++ (content ++ rest)).count '\n' = before.count '\n' := by
    simp [List.count_append, List.count_eq_zero.mpr single, List.count_eq_zero.mpr plain]
  have feed : size ['\n'] = 1 := rfl
  simp only [feeds, List.append_assoc, size_append, feed] at counted ⊢
  omega

/-- The lines from that of an offset on are those that end behind the offset, and the last one if it
has no end. -/
theorem Of.lineOf_le_number_iff (line : l.Of text) (offset : Nat) :
    (ofText text).lineOf offset ≤ l.number ↔ offset < l.stop ∨ l.ending = [] := by
  obtain ⟨before, content, ending⟩ := l
  obtain ⟨_, single, behind, rfl, ends⟩ := line
  rw [lineOf_eq, number, stop, Nat.add_le_add_iff_right]
  cases ends with
  | feed =>
    have ended := countP_feedEnds_le_iff before single List.not_mem_nil behind offset
    simpa using ended
  | returnFeed =>
    have plain : '\n' ∉ ['\r'] := by decide
    simpa using countP_feedEnds_le_iff before single plain behind offset
  | text =>
    -- The line feeds before the last line are all there are.
    have most := countP_feedEnds_le (before ++ content) 0 offset
    have feeds : (before ++ content).count '\n' = before.count '\n' := by
      simp [List.count_append, List.count_eq_zero.mpr single]
    simp only [List.append_nil, or_true, iff_true]
    omega

theorem Of.start_lt_stop (line : l.Of text) : l.start < l.stop := by
  obtain ⟨_, _, behind, _, ends⟩ := line
  have some : l.content ++ l.ending ≠ [] := by
    intro none
    obtain ⟨content, ending⟩ := List.append_eq_nil_iff.mp none
    rw [content, ending] at ends
    cases ends
    contradiction
  have bytes : size (l.content ++ l.ending) ≠ 0 := fun zero => some (size_eq_zero zero)
  rw [start, stop, size_append]
  omega

/-- A line has the number that is counted for its first byte. -/
theorem Of.lineOf_start (line : l.Of text) : (ofText text).lineOf l.start = l.number := by
  apply Nat.le_antisymm
  · exact (line.lineOf_le_number_iff _).mpr (.inl line.start_lt_stop)
  · exact (line.number_le_lineOf_iff _).mpr (Nat.le_refl _)

end Numbering

end Line

end Ripple
