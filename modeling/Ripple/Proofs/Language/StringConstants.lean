import Ripple.Proofs.Language.DeclarationBlocks

/-!
Constants with texts as values, in a block. Brackets are counted wherever they stand, in a text too.
So a constant is reported exactly if the texts above it close as many brackets as they open, and a
block loses a constant as soon as a bracket stands alone in a text above it.
-/

namespace Ripple

namespace ExportGroup

theorem balance_of_none {text : List Char}
    (none : ∀ c ∈ text, isOpening c = false ∧ isClosing c = false) : balance text = 0 := by
  have opening : text.countP isOpening = 0 :=
    List.countP_eq_zero.mpr fun c member => by simp [(none c member).1]
  have closing : text.countP isClosing = 0 :=
    List.countP_eq_zero.mpr fun c member => by simp [(none c member).2]
  rw [balance, opening, closing]
  rfl

/-- Names have no brackets. -/
theorem balance_name {name : List Char} (named : nameForm.Names name) : balance name = 0 := by
  have brackets : ['\x7b', '(', '[', '\x7d', ')', ']'].all (fun c => !isNameChar false c) = true := by
    decide
  refine balance_of_none fun c member => ?_
  have word := (identifier_of_names named).chars c member
  have other : c ∉ ['\x7b', '(', '[', '\x7d', ')', ']'] := by
    intro bracket
    have none := List.all_eq_true.mp brackets c bracket
    simp [word] at none
  simpa [isOpening, isClosing, and_assoc] using other

end ExportGroup

namespace Language.Go

open Text ExportGroup Point

/-- A constant whose value is a text in quotes. -/
structure StringConstant where
  name : List Char
  value : List Char
  named : nameForm.Names name
  single : '\n' ∉ value

namespace StringConstant

def names (c : StringConstant) : NameList := ⟨c.name, [], c.named⟩

/-- What follows the name on the line. -/
def rest (c : StringConstant) : List Char := ' ' :: '=' :: (' ' :: '"' :: (c.value ++ ['"']))

def line (c : StringConstant) : List Char := c.names.chars ++ c.rest

def symbol (number : Nat) (c : StringConstant) : Export :=
  { name := String.ofList c.name
    kind := .constant
    line := number
    isPublic := c.name.head?.any Unicode.isUppercase }

theorem rest_single (c : StringConstant) : '\n' ∉ c.rest := by
  simp [rest, c.single]

theorem line_single (c : StringConstant) : '\n' ∉ c.line := by
  rw [line, List.mem_append, not_or]
  exact ⟨c.names.single, c.rest_single⟩

/-- The depth behind a line is told by the text alone. -/
theorem balance_line (c : StringConstant) : balance c.line = balance c.value := by
  have shape : c.line = c.name ++ ([' ', '=', ' ', '"'] ++ (c.value ++ ['"'])) := by
    simp [line, rest, names, NameList.chars]
  have quotes : balance [' ', '=', ' ', '"'] = 0 ∧ balance ['"'] = 0 := by decide
  rw [shape, balance_append, balance_append, balance_append, balance_name c.named, quotes.1, quotes.2]
  omega

end StringConstant

open StringConstant

/-- The depth of brackets above a constant. -/
def depthAbove (cs : List StringConstant) (i : Nat) : Int := balance ((cs.take i).flatMap value)

theorem depthAbove_succ (c : StringConstant) (cs : List StringConstant) (i : Nat) :
    depthAbove (c :: cs) (i + 1) = balance c.value + depthAbove cs i := by
  rw [depthAbove, List.take_succ_cons, List.flatMap_cons, balance_append, depthAbove]

/-- The constants above which all brackets are closed, in a block that begins at a depth and on a
line. -/
def reported (depth : Int) (number : Nat) (cs : List StringConstant) : List Export :=
  (cs.zipIdx.filter fun e => depth + depthAbove cs e.2 = 0).map fun e => e.1.symbol (number + e.2)

theorem reported_cons (depth : Int) (number : Nat) (c : StringConstant) (cs : List StringConstant) :
    reported depth number (c :: cs) =
      (if depth = 0 then [c.symbol number] else []) ++
        reported (depth + balance c.value) (number + 1) cs := by
  have above : depth + depthAbove (c :: cs) 0 = depth := Int.add_zero depth
  have later : (cs.zipIdx 1).filter (fun e => depth + depthAbove (c :: cs) e.2 = 0) =
      (cs.zipIdx.filter fun e => depth + balance c.value + depthAbove cs e.2 = 0).map
        fun e => (e.1, e.2 + 1) := by
    rw [List.zipIdx_succ, List.filter_map]
    simp only [Function.comp_def, depthAbove_succ, Int.add_assoc]
  have numbers : ∀ e : StringConstant × Nat, number + (e.2 + 1) = number + 1 + e.2 := by
    intro e
    omega
  rw [reported, List.zipIdx_cons, List.filter_cons, Nat.zero_add, later, above]
  by_cases outside : depth = 0
  · simp [outside, reported, Function.comp_def, numbers]
  · simp [outside, reported, Function.comp_def, numbers]

/-- The lines of the constants declare those that are reported. -/
theorem blockHits_constants (cs : List StringConstant) {u tail text : List Char}
    (whole : text = u ++ (rows (tabbed (cs.map line)) ++ tail)) (depth : Int) :
    blockHits entryPattern .constant (.ofText text) (pieces (tabbed (cs.map line))) (size u) depth =
      reported depth (u.count '\n' + 1) cs := by
  -- The lines that are behind are added to `u`, and their brackets to the depth.
  induction cs generalizing u depth with
  | nil => rfl
  | cons c cs ih =>
    have step : pieces (tabbed ((c :: cs).map line)) =
        (('\t' :: c.line) ++ ['\n']) :: pieces (tabbed (cs.map line)) := rfl
    have split : text = u ++ ((('\t' :: c.line) ++ ['\n']) ++ (rows (tabbed (cs.map line)) ++ tail)) := by
      simp [whole, tabbed]
    have further := @ih (u ++ (('\t' :: c.line) ++ ['\n'])) (by simpa using split)
      (depth + balance c.line)
    have count : (u ++ (('\t' :: c.line) ++ ['\n'])).count '\n' + 1 = u.count '\n' + 1 + 1 := by
      simp [List.count_eq_zero.mpr c.line_single]
    rw [count, balance_line] at further
    rw [step, reported_cons]
    by_cases outside : depth = 0
    · subst outside
      have here := @blockHits_entry .constant c.names c.rest (endsList_assignment _) c.rest_single _ _ _
        split (pieces (tabbed (cs.map line)))
      rw [if_pos rfl, ← further, ← balance_line, Int.zero_add]
      exact here
    · rw [if_neg outside, blockHits_within outside, ← size_append, balance_line, further,
        List.nil_append]

/-- A block of constants with texts as values. -/
def constantBlock (cs : List StringConstant) (last : List Char) : List Char :=
  rows (heading "const" :: tabbed (cs.map line)) ++ last

theorem exports?_constants (cs : List StringConstant) {behind last : List Char}
    (closes : IsLine (')' :: behind) last) :
    go.exports? (String.ofList (constantBlock cs last)) = some (reported 0 2 cs) := by
  have single : ∀ content ∈ cs.map line, '\n' ∉ content := by
    intro content listed
    obtain ⟨c, _, rfl⟩ := List.mem_map.mp listed
    exact c.line_single
  let b : Block := ⟨"const", .constant, cs.map line, behind, last, .head _, single, closes⟩
  have whole := b.whole
  rw [flatten_pieces] at whole
  have run := blockHits_constants cs whole 0
  rw [b.count_heading] at run
  exact b.exports?_eq.trans (congrArg some run)

/-- In a block of constants with texts as values, exactly those are reported above which the texts
close as many brackets as they open. So none is lost exactly if this is so for all of them. -/
theorem constants_reported_outside_brackets (cs : List StringConstant) {behind last : List Char}
    (closes : IsLine (')' :: behind) last) :
    go.exports? (String.ofList (constantBlock cs last)) = some
        ((cs.zipIdx.filter fun e => depthAbove cs e.2 = 0).map fun e => e.1.symbol (e.2 + 2)) ∧
      (go.exports? (String.ofList (constantBlock cs last)) =
          some (cs.zipIdx.map fun e => e.1.symbol (e.2 + 2)) ↔
        ∀ i < cs.length, depthAbove cs i = 0) := by
  have found : go.exports? (String.ofList (constantBlock cs last)) = some
      ((cs.zipIdx.filter fun e => depthAbove cs e.2 = 0).map fun e => e.1.symbol (e.2 + 2)) := by
    rw [exports?_constants cs closes, reported]
    simp only [Int.zero_add, Nat.add_comm 2]
  refine ⟨found, ?_⟩
  rw [found, Option.some.injEq]
  constructor
  · intro same i below
    -- As many are reported as there are, so none is left out.
    have lengths := congrArg List.length same
    rw [List.length_map, List.length_map] at lengths
    have all := List.filter_eq_self.mp (List.filter_sublist.eq_of_length lengths)
    have member : (cs[i], i) ∈ cs.zipIdx :=
      List.mem_zipIdx_iff_getElem?.mpr (List.getElem?_eq_getElem below)
    exact of_decide_eq_true (all _ member)
  · intro closed
    rw [List.filter_eq_self.mpr]
    intro e member
    have below := List.getElem?_eq_some_iff.mp (List.mem_zipIdx_iff_getElem?.mp member)
    exact decide_eq_true (closed e.2 below.1)

def openConstant : StringConstant where
  name := ['O', 'p', 'e', 'n']
  value := ['(']
  named := ⟨by decide, Nat.zero_le _, List.all_eq_true.mp (by decide)⟩
  single := by decide

def closeConstant : StringConstant where
  name := ['C', 'l', 'o', 's', 'e']
  value := [')']
  named := ⟨by decide, Nat.zero_le _, List.all_eq_true.mp (by decide)⟩
  single := by decide

def nameConstant : StringConstant where
  name := ['N', 'a', 'm', 'e']
  value := ['x']
  named := ⟨by decide, Nat.zero_le _, List.all_eq_true.mp (by decide)⟩
  single := by decide

theorem closing_line : IsLine [')'] [')', '\n'] := ⟨by decide, .inr rfl⟩

/-- The second of three constants is lost, and the third is not. -/
theorem constants_reported_outside_brackets_three :
    go.exports? "const (\n\tOpen = \"(\"\n\tClose = \")\"\n\tName = \"x\"\n)\n" =
      some [⟨"Open", .constant, 2, true⟩, ⟨"Name", .constant, 4, true⟩] := by
  have text : "const (\n\tOpen = \"(\"\n\tClose = \")\"\n\tName = \"x\"\n)\n" =
      String.ofList (constantBlock [openConstant, closeConstant, nameConstant] [')', '\n']) := by
    decide
  rw [text, (constants_reported_outside_brackets _ closing_line).1]
  decide +kernel

/-- A constant is lost below a text with an opening bracket. -/
theorem constant_lost_below_bracket :
    (∀ c ∈ [openConstant, nameConstant], '"' ∉ c.value ∧ '\\' ∉ c.value) ∧
      go.exports? "const (\n\tOpen = \"(\"\n\tName = \"x\"\n)\n" =
        some [⟨"Open", .constant, 2, true⟩] := by
  have text : "const (\n\tOpen = \"(\"\n\tName = \"x\"\n)\n" =
      String.ofList (constantBlock [openConstant, nameConstant] [')', '\n']) := by
    decide
  constructor
  · simp [openConstant, nameConstant]
  · rw [text, exports?_constants _ closing_line]
    decide +kernel

end Language.Go

end Ripple
