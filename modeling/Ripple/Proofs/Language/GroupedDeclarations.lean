import Ripple.Proofs.Language.DeclarationBlocks

/-!
Blocks of declarations in Go. A block declares the names at the beginnings of its entries and no
others: the lines of a value in brackets are passed over, since they begin at a positive depth of
brackets, and behind each entry the depth is zero again.
-/

namespace Ripple

namespace ExportGroup

open Text Point

/-- Each of the lines begins at a positive depth, and behind the last one the depth is zero. -/
def Nested : Int → List (List Char) → Prop
  | depth, [] => depth = 0
  | depth, line :: lines => 0 < depth ∧ Nested (depth + balance line) lines

instance decidableNested : (depth : Int) → (lines : List (List Char)) → Decidable (Nested depth lines)
  | depth, [] => inferInstanceAs (Decidable (depth = 0))
  | depth, line :: lines =>
    have := decidableNested (depth + balance line) lines
    inferInstanceAs (Decidable (0 < depth ∧ Nested (depth + balance line) lines))

/-- An entry of a block: a list of names with a rest of the line, and the further lines of the
entry, which stand within brackets. The tabs before the lines are left out. -/
structure Declaration where
  names : NameList
  rest : List Char
  further : List (List Char)
  ends : EndsList rest
  single : '\n' ∉ rest
  singles : ∀ line ∈ further, '\n' ∉ line
  nested : Nested (balance (names.chars ++ rest)) further

section Lines

variable {entry : Pattern} {kind : SymbolKind} {index : LineIndex} {offset : Nat}

/-- Lines within brackets declare nothing. -/
theorem blockHits_nested {lines : List (List Char)} {depth : Int} (nested : Nested depth lines)
    (more : List (List Char)) :
    blockHits entry kind index (pieces (tabbed lines) ++ more) offset depth =
      blockHits entry kind index more (offset + size (rows (tabbed lines))) 0 := by
  induction lines generalizing offset depth with
  | nil =>
    obtain rfl : depth = 0 := nested
    simp [pieces, tabbed]
  | cons line lines ih =>
    obtain ⟨positive, nested⟩ := nested
    have inside : depth ≠ 0 := by omega
    have bytes : offset + size (rows (tabbed (line :: lines))) =
        offset + size (('\t' :: line) ++ ['\n']) + size (rows (tabbed lines)) := by
      rw [Nat.add_assoc, ← size_append]
      simp [tabbed]
    have step : pieces (tabbed (line :: lines)) ++ more =
        (('\t' :: line) ++ ['\n']) :: (pieces (tabbed lines) ++ more) := rfl
    rw [step, blockHits_within inside, ih nested, bytes]

end Lines

namespace Declaration

def firstLine (d : Declaration) : List Char := d.names.chars ++ d.rest

def lines (d : Declaration) : List (List Char) := tabbed (d.firstLine :: d.further)

/-- The declared symbols, given the line on which the names stand. -/
def symbols (kind : SymbolKind) (line : Nat) (d : Declaration) : List Export :=
  d.names.names.map fun name =>
    { name := String.ofList name
      kind := kind
      line := line
      isPublic := name.head?.any Unicode.isUppercase }

/-- The first line of an entry declares its names, and its further lines declare nothing. -/
theorem blockHits_lines (d : Declaration) {kind : SymbolKind} {u tail text : List Char}
    (whole : text = u ++ (rows d.lines ++ tail)) (more : List (List Char)) :
    blockHits Language.Go.entryPattern kind (.ofText text) (pieces d.lines ++ more) (size u) 0 =
      d.symbols kind (u.count '\n' + 1) ++
        blockHits Language.Go.entryPattern kind (.ofText text) more (size (u ++ rows d.lines)) 0 := by
  have step : pieces d.lines ++ more =
      (('\t' :: (d.names.chars ++ d.rest)) ++ ['\n']) :: (pieces (tabbed d.further) ++ more) := rfl
  have split : text = u ++ ((('\t' :: (d.names.chars ++ d.rest)) ++ ['\n']) ++
      (rows (tabbed d.further) ++ tail)) := by
    simp [whole, lines, firstLine, tabbed]
  have bytes : size (u ++ rows d.lines) =
      size (u ++ (('\t' :: (d.names.chars ++ d.rest)) ++ ['\n'])) + size (rows (tabbed d.further)) := by
    rw [← size_append]
    simp [lines, firstLine, tabbed]
  rw [step, blockHits_entry d.names d.ends d.single split, blockHits_nested d.nested, bytes]
  rfl

theorem single_of_mem (d : Declaration) : ∀ line ∈ d.lines, '\n' ∉ line := by
  have first : '\n' ∉ d.firstLine := by
    rw [firstLine, List.mem_append, not_or]
    exact ⟨d.names.single, d.single⟩
  intro line listed
  obtain ⟨content, member, rfl⟩ := List.mem_map.mp listed
  rcases List.mem_cons.mp member with rfl | member
  · simp [first]
  · simp [d.singles content member]

end Declaration

/-- The symbols of the entries, one after another, given the line on which they begin. -/
def symbolsOf (kind : SymbolKind) : Nat → List Declaration → List Export
  | _, [] => []
  | line, d :: ds => d.symbols kind line ++ symbolsOf kind (line + d.lines.length) ds

/-- All lines between the first and the last line of a block. -/
def inner (ds : List Declaration) : List (List Char) := ds.flatMap Declaration.lines

theorem blockHits_inner (ds : List Declaration) {kind : SymbolKind} {u tail text : List Char}
    (whole : text = u ++ (rows (inner ds) ++ tail)) :
    blockHits Language.Go.entryPattern kind (.ofText text) (pieces (inner ds)) (size u) 0 =
      symbolsOf kind (u.count '\n' + 1) ds := by
  -- The entries that are behind are added to `u`, so that the offset stays that of a line.
  induction ds generalizing u with
  | nil => rfl
  | cons d ds ih =>
    have split : text = u ++ (rows d.lines ++ (rows (inner ds) ++ tail)) := by
      simpa [inner] using whole
    have further := @ih (u ++ rows d.lines) (by simpa using split)
    have pieced : pieces (inner (d :: ds)) = pieces d.lines ++ pieces (inner ds) := by
      simp [pieces, inner]
    have count : (u ++ rows d.lines).count '\n' + 1 = u.count '\n' + 1 + d.lines.length := by
      rw [List.count_append, count_rows d.single_of_mem]
      omega
    rw [pieced, d.blockHits_lines split, further, count, symbolsOf]

theorem line_of_symbolsOf {kind : SymbolKind} {line : Nat} {ds : List Declaration} {x : Export}
    (listed : x ∈ symbolsOf kind line ds) : line ≤ x.line := by
  induction ds generalizing line with
  | nil => cases listed
  | cons d ds ih =>
    rcases List.mem_append.mp listed with here | later
    · obtain ⟨_, _, rfl⟩ := List.mem_map.mp here
      exact Nat.le_refl _
    · exact Nat.le_trans (Nat.le_add_right _ _) (ih later)

theorem symbolsOf_ascend (kind : SymbolKind) (line : Nat) (ds : List Declaration) :
    (symbolsOf kind line ds).Pairwise fun a b => a.line ≤ b.line := by
  induction ds generalizing line with
  | nil => exact .nil
  | cons d ds ih =>
    have level : ∀ x ∈ d.symbols kind line, x.line = line := by
      intro x listed
      obtain ⟨_, _, rfl⟩ := List.mem_map.mp listed
      rfl
    refine List.pairwise_append.mpr ⟨?_, ih _, ?_⟩
    · refine List.pairwise_of_forall_mem_list fun a here b there => ?_
      rw [level a here, level b there]
    · intro a here b there
      rw [level a here]
      exact Nat.le_trans (Nat.le_add_right _ _) (line_of_symbolsOf there)

end ExportGroup

namespace Language.Go

open Regex Language.Part Text ExportGroup

/-- A block of declarations. -/
def declarationBlock (keyword : String) (ds : List Declaration) : List Char :=
  rows (heading keyword :: inner ds) ++ [')', '\n']

section Block

variable {keyword : String} {kind : SymbolKind} (listed : (keyword, kind) ∈ blockKeywords)

include listed

/-- The lines of the entries, in a block. -/
def blockOf (ds : List Declaration) : Block where
  keyword := keyword
  kind := kind
  lines := ds.flatMap fun d => d.firstLine :: d.further
  behind := []
  last := [')', '\n']
  listed := listed
  single := by
    intro line member
    obtain ⟨d, _, member⟩ := List.mem_flatMap.mp member
    have single := d.single_of_mem ('\t' :: line) (List.mem_map_of_mem member)
    simpa using single
  closes := ⟨by decide, .inr rfl⟩

theorem tabbed_blockOf (ds : List Declaration) : tabbed (blockOf listed ds).lines = inner ds :=
  List.map_flatMap

theorem declarationBlock_eq (ds : List Declaration) :
    declarationBlock keyword ds = (blockOf listed ds).chars := by
  rw [Block.chars, tabbed_blockOf]
  rfl

theorem rules_silent {ds : List Declaration} (index : LineIndex) {rules : List ExportRule}
    (given : go.exportRules = some rules) :
    rules.flatMap (·.hits (declarationBlock keyword ds) index) = [] := by
  rw [declarationBlock_eq listed ds]
  exact (blockOf listed ds).rules_silent index given

theorem hits_block (ds : List Declaration) :
    (ExportGroup.block declarationBlockPattern entryPattern).hits (declarationBlock keyword ds)
      (.ofText (declarationBlock keyword ds)) = symbolsOf kind 2 ds := by
  rw [declarationBlock_eq listed ds, Block.hits_eq, Block.hits, tabbed_blockOf]
  have whole := (blockOf listed ds).whole
  rw [flatten_pieces, tabbed_blockOf] at whole
  have run := @blockHits_inner ds kind _ _ _ whole
  rw [(blockOf listed ds).count_heading] at run
  exact run

end Block

/-- A block of declarations exports exactly the names that its entries begin with, in their order
and each on the line on which its entry begins. No name on a further line of an entry is reported. -/
theorem grouped_declarations_exported {keyword : String} {kind : SymbolKind}
    (listed : (keyword, kind) ∈ blockKeywords) (ds : List Declaration) :
    go.exports? (String.ofList (declarationBlock keyword ds)) = some (symbolsOf kind 2 ds) := by
  -- The block is read from its first line to its last, so the order by lines changes nothing.
  have sorted : Export.inLineOrder (symbolsOf kind 2 ds) = symbolsOf kind 2 ds :=
    List.mergeSort_of_pairwise ((symbolsOf_ascend kind 2 ds).imp fun le => decide_eq_true le)
  have groups : go.exportGroups = [.block declarationBlockPattern entryPattern] := rfl
  cases given : go.exportRules with
  | none => cases given
  | some rules =>
    rw [exports?, given, Option.map_some, exportHits, String.toList_ofList,
      rules_silent listed _ given, groups, List.flatMap_singleton, hits_block listed ds,
      List.nil_append, sorted]

/-- Two constants, one of which has a call over several lines as its value. -/
def pairDeclaration : Declaration where
  names := ⟨['A'], [⟨[], [' '], ['b'], Blanks.nil, Blanks.space, by decide, Nat.zero_le _, by simp⟩],
    by decide, Nat.zero_le _, by simp⟩
  rest := [' ', '=', ' ', 'f', '(']
  further := [['\t', 'C', ','], [')', ',', ' ', '1']]
  ends :=
    { word := by
        rintro _ ⟨⟩
        decide
      item := by
        intro i more same
        have comma : ',' ∈ [' ', '=', ' ', 'f', '('] := by simp [same, Item.chars]
        exact absurd comma (by decide) }
  single := by decide
  singles := by simp
  nested := by decide

def lastDeclaration : Declaration where
  names := ⟨['d'], [], by decide, Nat.zero_le _, by simp⟩
  rest := []
  further := []
  ends :=
    { word := by simp [NameForm.Ends]
      item := by simp [Item.chars] }
  single := by simp
  singles := by simp
  nested := by decide

theorem grouped_declarations_exported_pair :
    go.exports? "const (\n\tA, b = f(\n\t\tC,\n\t), 1\n\td\n)\n" = some
      [⟨"A", .constant, 2, true⟩, ⟨"b", .constant, 2, false⟩, ⟨"d", .constant, 5, false⟩] := by
  have text : "const (\n\tA, b = f(\n\t\tC,\n\t), 1\n\td\n)\n" =
      String.ofList (declarationBlock "const" [pairDeclaration, lastDeclaration]) := by decide
  rw [text, grouped_declarations_exported (.head _) [pairDeclaration, lastDeclaration]]
  decide +kernel

end Language.Go

end Ripple
