import Ripple.Proofs.Language.DeclarationBlocks

/-!
One declaration in two forms in Go: on a line with its keyword, or alone in a block. Both may give
values to a list of names. The block reports all of the names, and the line reports only the first, so
the two forms agree exactly if there is one name.
-/

namespace Ripple

namespace Language.Go

open Regex Language.Part Text ExportGroup

/-- The keywords of declarations with values, with the kinds of the symbols that they declare. -/
def valueKeywords : List (String × SymbolKind) := [("const", .constant), ("var", .var)]

theorem blockKeywords_of_value {keyword : String} {kind : SymbolKind}
    (listed : (keyword, kind) ∈ valueKeywords) : (keyword, kind) ∈ blockKeywords := by
  have within : valueKeywords ⊆ blockKeywords := by simp [valueKeywords, blockKeywords]
  exact within listed

/-- Names that are given values. -/
structure Assignment where
  names : NameList
  values : List Char
  single : '\n' ∉ values

namespace Assignment

/-- What follows the names. -/
def rest (a : Assignment) : List Char := ' ' :: '=' :: (' ' :: a.values)

def chars (a : Assignment) : List Char := a.names.chars ++ a.rest

theorem rest_single (a : Assignment) : '\n' ∉ a.rest := by
  simp [rest, a.single]

theorem chars_single (a : Assignment) : '\n' ∉ a.chars := by
  rw [chars, List.mem_append, not_or]
  exact ⟨a.names.single, a.rest_single⟩

/-- The declaration on a line. -/
def onLine (keyword : String) (a : Assignment) : List Char := keyword.toList ++ ([' '] ++ a.chars)

/-- The declaration in a block. -/
def inBlock (keyword : String) (a : Assignment) : List Char :=
  rows (heading keyword :: tabbed [a.chars]) ++ [')']

end Assignment

/-- What the name is followed by in a list does not belong to the name. -/
theorem ends_first (a : Assignment) :
    nameForm.Ends (a.names.others.flatMap Item.chars ++ a.rest) :=
  ends_items (endsList_assignment _).word _

theorem onLine_eq (keyword : String) (a : Assignment) : a.onLine keyword = keyword.toList ++
    ([' '] ++ (a.names.first ++ (a.names.others.flatMap Item.chars ++ a.rest))) := by
  simp [Assignment.onLine, Assignment.chars, NameList.chars]

section Line

variable {keyword : String} {kind : SymbolKind} (listed : (keyword, kind) ∈ blockKeywords)
  (a : Assignment)

include listed

theorem onLine_single : '\n' ∉ a.onLine keyword := by
  have heading := heading_single listed
  simp only [Go.heading, List.mem_append, not_or] at heading
  simp [Assignment.onLine, heading.1, a.chars_single]

/-- A rule for the keyword finds the first name. -/
theorem hits_onLine {rule : ExportRule}
    (heads : rule.Heads (letters keyword ++ [several blank]) nameForm []) :
    rule.hits (a.onLine keyword) (.ofText (a.onLine keyword)) =
      [⟨String.ofList a.names.first, rule.kind, 1, rule.visibility.isPublic a.names.first none⟩] := by
  have isLine : IsLine (a.onLine keyword) (a.onLine keyword) := ⟨onLine_single listed a, .inl rfl⟩
  obtain ⟨b, word, restB⟩ :=
    Point.exists_reads (p := .start (a.onLine keyword)) (onLine_eq keyword a)
  obtain ⟨c, gap, restC⟩ := Point.exists_reads restB
  obtain ⟨q, name, _⟩ := Point.exists_reads restC
  have takes : (seqs ((letters keyword ++ [several blank]) ++ [.group 1 nameForm.regex])).Takes
      (.start (a.onLine keyword)) q := by
    refine takes_seqs_append.mpr ⟨c, takes_seqs_append.mpr ⟨b, takes_chars.mpr word, ?_⟩, ?_⟩
    · exact takes_run.mpr ⟨[' '], Nat.le_refl 1, Blanks.space, gap⟩
    · exact NameForm.takes_iff.mpr ⟨_, a.names.named, name⟩
  apply heads.hits_eq_singleton isLine takes
  intro o name' rest front named' ends found
  obtain ⟨b', word', run⟩ := takes_seqs_append.mp front
  obtain ⟨pad, _, blanks, reads⟩ := takes_run.mp run
  -- The line is read twice, with its own blank and with the blanks that the rule has found.
  have same : pad ++ (name' ++ rest) =
      [' '] ++ (a.names.first ++ (a.names.others.flatMap Item.chars ++ a.rest)) := by
    rw [← found, ← reads.rest_eq]
    exact List.append_cancel_left ((takes_chars.mp word').rest_eq.symm.trans (onLine_eq keyword a))
  obtain ⟨_, names⟩ := blanks_unique blanks Blanks.space (goes_name named' rest)
    (goes_name a.names.named _) same
  exact (NameForm.eq_of_names named' a.names.named ends (ends_first a) names).1

/-- A line with a keyword and a name begins no block. -/
theorem block_onLine (index : LineIndex) :
    (ExportGroup.block declarationBlockPattern entryPattern).hits (a.onLine keyword) index = [] := by
  have steady : declarationBlockPattern.regex.steady = true := by
    rw [declarationBlockPattern_regex]
    decide
  have silent : ∀ p q, p.In (a.onLine keyword) → ¬ declarationBlockPattern.regex.Takes p q := by
    intro p q inside takes
    obtain ⟨_, o, b, word, c, gap, bracket⟩ :=
      start_of_block listed (onLine_eq keyword a) (flush_of_single (onLine_single listed a)) inside takes
    obtain ⟨pad, _, blanks, reads⟩ := takes_run.mp gap
    have further : o.rest = pad ++ '(' :: b.rest := by
      rw [reads.rest_eq, Point.Reads.rest_eq bracket]
      rfl
    have named : o.rest =
        [' '] ++ (a.names.first ++ (a.names.others.flatMap Item.chars ++ a.rest)) :=
      List.append_cancel_left (word.rest_eq.symm.trans (onLine_eq keyword a))
    exact bracket_ne_name blanks Blanks.space a.names.named _ _ (further.symm.trans named)
  rw [ExportGroup.hits, Pattern.matchesOf, matchesOf_eq_nil steady silent, List.flatMap_nil]

end Line

theorem constantRule_heads : ExportRule.Heads ⟨constantPattern, .constant, .capitalized⟩
    (letters "const" ++ [several blank]) nameForm [] :=
  ExportRule.heads_ofText rfl (.inl rfl) rfl

theorem variableRule_heads : ExportRule.Heads ⟨variablePattern, .var, .capitalized⟩
    (letters "var" ++ [several blank]) nameForm [] :=
  ExportRule.heads_ofText rfl (.inl rfl) rfl

/-- A declaration on a line reports the first name. -/
theorem exports?_onLine {keyword : String} {kind : SymbolKind}
    (listed : (keyword, kind) ∈ valueKeywords) (a : Assignment) :
    go.exports? (String.ofList (a.onLine keyword)) = some ((a.names.symbols kind 1).take 1) := by
  have known := blockKeywords_of_value listed
  have flush := flush_of_single (onLine_single known a)
  have groups : go.exportGroups = [.block declarationBlockPattern entryPattern] := rfl
  -- The rules for other keywords find nothing.
  have silent : ∀ {rule : ExportRule} {word : String} {more : List Regex},
      word ∈ declarationWords → rule.pattern.regex = seqs (lineFront ++ (letters word ++ more)) →
      (seqs (lineFront ++ (letters word ++ more))).steady = true → word ≠ keyword →
      rule.hits (a.onLine keyword) (.ofText (a.onLine keyword)) = [] :=
    fun isWord shape steady other => hits_eq_nil known (onLine_eq keyword a) flush isWord shape steady
      (fun same => absurd same other) _
  have apart : "func" ≠ keyword ∧ "type" ≠ keyword := by
    constructor <;> rintro rfl <;> simp [valueKeywords] at listed
  have function : (⟨functionPattern, .function, .capitalized⟩ : ExportRule).hits (a.onLine keyword)
      (.ofText (a.onLine keyword)) = [] :=
    silent (by decide) functionPattern_regex (by decide) apart.1
  have type : (⟨typePattern, .type, .capitalized⟩ : ExportRule).hits (a.onLine keyword)
      (.ofText (a.onLine keyword)) = [] := silent (by decide) typePattern_regex (by decide) apart.2
  have found : [(⟨functionPattern, .function, .capitalized⟩ : ExportRule),
      ⟨typePattern, .type, .capitalized⟩, ⟨constantPattern, .constant, .capitalized⟩,
      ⟨variablePattern, .var, .capitalized⟩].flatMap
        (·.hits (a.onLine keyword) (.ofText (a.onLine keyword))) =
      (a.names.symbols kind 1).take 1 := by
    simp only [valueKeywords, List.mem_cons, Prod.mk.injEq, List.not_mem_nil, or_false] at listed
    rcases listed with ⟨rfl, rfl⟩ | ⟨rfl, rfl⟩
    · have variable' : (⟨variablePattern, .var, .capitalized⟩ : ExportRule).hits (a.onLine "const")
          (.ofText (a.onLine "const")) = [] :=
        silent (by decide) variablePattern_regex (by decide) (by decide)
      simp only [List.flatMap_cons, List.flatMap_nil, function, type, variable',
        hits_onLine known a constantRule_heads]
      rfl
    · have constant : (⟨constantPattern, .constant, .capitalized⟩ : ExportRule).hits (a.onLine "var")
          (.ofText (a.onLine "var")) = [] :=
        silent (by decide) constantPattern_regex (by decide) (by decide)
      simp only [List.flatMap_cons, List.flatMap_nil, function, type, constant,
        hits_onLine known a variableRule_heads]
      rfl
  rw [exports?, show go.exportRules = some _ from rfl, Option.map_some, exportHits,
    String.toList_ofList, found, groups, List.flatMap_singleton, block_onLine known a, List.append_nil]
  exact congrArg some (List.mergeSort_singleton _)

/-- A declaration that is alone in a block reports all names. -/
theorem exports?_inBlock {keyword : String} {kind : SymbolKind}
    (listed : (keyword, kind) ∈ blockKeywords) (a : Assignment) :
    go.exports? (String.ofList (a.inBlock keyword)) = some (a.names.symbols kind 2) := by
  let b : Block := ⟨keyword, kind, [a.chars], [], [')'], listed,
    List.forall_mem_singleton.mpr a.chars_single, by decide, .inl rfl⟩
  have line : (pieces (tabbed [a.chars])).flatten = ('\t' :: a.chars) ++ ['\n'] :=
    List.flatten_singleton
  have whole : b.chars = (heading keyword ++ ['\n']) ++ ((('\t' :: a.chars) ++ ['\n']) ++ [')']) := by
    rw [← line]
    exact b.whole
  have run := @blockHits_entry kind a.names a.rest (endsList_assignment _) a.rest_single _ _ _ whole []
  rw [b.count_heading, blockHits, List.append_nil] at run
  exact b.exports?_eq.trans (congrArg some run)

/-- What is reported of a symbol besides its line. -/
def told (x : Export) : String × SymbolKind × Bool := (x.name, x.kind, x.isPublic)

/-- A declaration of a constant or a variable on a line reports the first of its names only, and the
same declaration in a block reports all of them. So the two agree exactly if there is one name. -/
theorem line_and_block_agree_on_one_name {keyword : String} {kind : SymbolKind}
    (listed : (keyword, kind) ∈ valueKeywords) (a : Assignment) :
    ∃ single grouped, go.exports? (String.ofList (a.onLine keyword)) = some single ∧
      go.exports? (String.ofList (a.inBlock keyword)) = some grouped ∧
      single = (a.names.symbols kind 1).take 1 ∧ grouped = a.names.symbols kind 2 ∧
      (single.map told = grouped.map told ↔ a.names.others = []) := by
  refine ⟨_, _, exports?_onLine listed a, exports?_inBlock (blockKeywords_of_value listed) a, rfl, rfl,
    ?_⟩
  simp [NameList.symbols, NameList.names, told]

/-- Two variables, with blanks around the comma. -/
def spacedAssignment : Assignment where
  names := ⟨['a'], [⟨[' '], [' '], ['B'], Blanks.space, Blanks.space, by decide, Nat.zero_le _, by simp⟩],
    by decide, Nat.zero_le _, by simp⟩
  values := ['f', '(', ')']
  single := by decide

theorem line_and_block_agree_spaced :
    ∃ single grouped, go.exports? "var a , B = f()" = some single ∧
      go.exports? "var (\n\ta , B = f()\n)" = some grouped ∧
      single = [⟨"a", .var, 1, false⟩] ∧
      grouped = [⟨"a", .var, 2, false⟩, ⟨"B", .var, 2, true⟩] := by
  have line : "var a , B = f()" = String.ofList (spacedAssignment.onLine "var") := by decide
  have block : "var (\n\ta , B = f()\n)" = String.ofList (spacedAssignment.inBlock "var") := by
    decide
  obtain ⟨single, grouped, first, second, rfl, rfl, _⟩ :=
    line_and_block_agree_on_one_name (.tail _ (.head _)) spacedAssignment
  rw [line, block]
  exact ⟨_, _, first, second, by decide +kernel, by decide +kernel⟩

/-- Two constants with values. -/
def pairAssignment : Assignment where
  names := ⟨['X'], [⟨[], [' '], ['Y'], Blanks.nil, Blanks.space, by decide, Nat.zero_le _, by simp⟩],
    by decide, Nat.zero_le _, by simp⟩
  values := ['1', ',', ' ', '2']
  single := by decide

/-- The second of two constants is reported in a block and not on a line. -/
theorem second_name_lost_on_line :
    (∀ c ∈ pairAssignment.values, isOpening c = false ∧ isClosing c = false) ∧
    go.exports? "const X, Y = 1, 2" = some [⟨"X", .constant, 1, true⟩] ∧
      go.exports? "const (\n\tX, Y = 1, 2\n)" =
        some [⟨"X", .constant, 2, true⟩, ⟨"Y", .constant, 2, true⟩] := by
  have line : "const X, Y = 1, 2" = String.ofList (pairAssignment.onLine "const") := by decide
  have block : "const (\n\tX, Y = 1, 2\n)" = String.ofList (pairAssignment.inBlock "const") := by
    decide
  refine ⟨by simp [pairAssignment, isOpening, isClosing], ?_, ?_⟩
  · rw [line, exports?_onLine (.head _)]
    decide +kernel
  · rw [block, exports?_inBlock (.head _)]
    decide +kernel

end Language.Go

end Ripple
