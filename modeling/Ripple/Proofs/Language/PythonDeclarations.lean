import Ripple.Proofs.Language.Keywords

/-!
The declarations of Python, one on each line. A source that is made of functions, classes, constants
and lines that declare nothing declares exactly the symbols of its lines.
-/

namespace Ripple.Language.Python

open Regex Language.Part Text ExportRule

/-- `[A-Za-z_]\w*` -/
def identifier : NameForm := ⟨ExportGroup.letter, .word, 0⟩

/-- `[A-Z][A-Z0-9_]+` -/
def upperCase : NameForm :=
  ⟨.range 'A' 'Z', .unions [.range 'A' 'Z', .range '0' '9', .single '_'], 1⟩

def functionRule : ExportRule := ⟨functionPattern, .function, .noLeadingUnderscore⟩

def classRule : ExportRule := ⟨classPattern, .type, .noLeadingUnderscore⟩

def constantRule : ExportRule := ⟨constantPattern, .constant, .noLeadingUnderscore⟩

def functionSlots : List Slot := [.optional "async", .word "def"]

def classSlots : List Slot := [.word "class"]

/-- What stands behind the name of a constant. -/
def assignment : List Regex :=
  [many blank, maybe (seqs [.char ':', many (except ['=', '\n'])]), .char '=',
    .alt (.set (.compl (.single '='))) (.assert .lineEnd)]

/-- An opening bracket or a blank ends a name. -/
theorem bracket_stops : identifier.Stops [many blank, .char '('] := by
  refine .inr ⟨rfl, fun c begins => ?_⟩
  have first : blank.mem c = true ∨ c = '(' := by
    simpa [Regex.begins, seqs, many, nullable] using begins
  rw [blank_mem_iff] at first
  rcases first with (rfl | rfl) | rfl <;> decide

theorem assignment_stops : upperCase.Stops assignment := by
  refine .inr ⟨rfl, fun c begins => ?_⟩
  have first : blank.mem c = true ∨ c = ':' ∨ c = '=' := by
    simpa [assignment, Regex.begins, seqs, many, maybe, nullable] using begins
  rw [blank_mem_iff] at first
  rcases first with (rfl | rfl) | rfl | rfl <;> decide

theorem functionRule_keyed : functionRule.Keyed functionSlots identifier [many blank, .char '('] where
  heads := heads_ofText rfl bracket_stops rfl
  solid := by decide
  clear := by decide

theorem classRule_keyed : classRule.Keyed classSlots identifier [] where
  heads := heads_ofText rfl (.inl rfl) rfl
  solid := by decide
  clear := by decide

theorem constantRule_heads : constantRule.Heads [] upperCase assignment :=
  heads_ofText rfl assignment_stops rfl

theorem exportRules_eq : python.exportRules = some [functionRule, classRule, constantRule] := rfl

def functionWords (isAsync : Bool) : List (List Char) :=
  if isAsync then ["async".toList, "def".toList] else ["def".toList]

/-- The words that begin a declaration. -/
def keywords : List (List Char) := ["def".toList, "async".toList, "class".toList]

/-- A line of a source, with blanks behind each word of its head. -/
inductive Line where
  /-- `def X(` or `async def X(`, followed by any text. -/
  | function (isAsync : Bool) (pad head name gap rest : List Char)
      (indented : Blanks pad) (words : Spaced (functionWords isAsync) head)
      (named : identifier.Names name) (spread : Blanks gap) (single : '\n' ∉ rest)
  /-- `class X`, where the name goes no further. -/
  | type (pad head name rest : List Char) (indented : Blanks pad)
      (words : Spaced ["class".toList] head) (named : identifier.Names name)
      (ends : identifier.Ends rest) (single : '\n' ∉ rest)
  /-- `C = v` or `C: T = v`, where no comparison is meant. -/
  | constant (name gap : List Char) (hint : Option (List Char)) (value : List Char)
      (named : upperCase.Names name) (spread : Blanks gap)
      (plain : ∀ t ∈ hint, '=' ∉ t ∧ '\n' ∉ t) (assigned : value.head? ≠ some '=')
      (single : '\n' ∉ value)
  /-- A line that is empty or begins with a blank, and with none of the words of a declaration. -/
  | filler (chars : List Char) (indented : ∀ c ∈ chars.head?, blank.mem c = true)
      (idle : firstWord chars ∉ keywords) (single : '\n' ∉ chars)

namespace Line

def chars : Line → List Char
  | function _ pad head name gap rest .. => pad ++ (head ++ (name ++ (gap ++ '(' :: rest)))
  | type pad head name rest .. => pad ++ (head ++ (name ++ rest))
  | constant name gap hint value .. => name ++ (gap ++ (hint.elim [] (':' :: ·) ++ '=' :: value))
  | filler chars .. => chars

/-- What a line declares, and under which name. -/
def declares : Line → Option (SymbolKind × List Char)
  | function _ _ _ name .. => some (.function, name)
  | type _ _ name .. => some (.type, name)
  | constant name .. => some (.constant, name)
  | filler .. => none

/-- The symbol of a line that stands at a number of lines. A leading underscore makes it private. -/
def symbol? (line : Line) (number : Nat) : Option Export :=
  line.declares.map fun d => ⟨String.ofList d.2, d.1, number, d.2.head? != some '_'⟩

theorem single (line : Line) : '\n' ∉ line.chars := by
  have blanks : ∀ {pad : List Char}, Blanks pad → '\n' ∉ pad :=
    fun blanks => blanks.not_mem (by decide)
  have names : ∀ {name : List Char}, identifier.Names name → '\n' ∉ name :=
    fun named => named.not_mem (by decide) (by decide)
  cases line with
  | function isAsync pad head name gap rest indented words named spread single =>
    have heads : '\n' ∉ head := words.not_mem (by cases isAsync <;> decide) (by decide)
    simp [chars, blanks indented, heads, names named, blanks spread, single]
  | type pad head name rest indented words named ends single =>
    have heads : '\n' ∉ head := words.not_mem (by decide) (by decide)
    simp [chars, blanks indented, heads, names named, single]
  | constant name gap hint value named spread plain assigned single =>
    have named : '\n' ∉ name := named.not_mem (by decide) (by decide)
    cases hint with
    | none => simp [chars, named, blanks spread, single]
    | some t => simp [chars, named, blanks spread, single, (plain t rfl).2]
  | filler chars indented idle single => exact single

end Line

theorem keywords_of_function : ∀ row ∈ Slot.rows functionSlots,
    ∃ word ∈ row.head?, word ∈ keywords ∧ '\n' ∉ word := by
  decide

theorem keywords_of_class : ∀ row ∈ Slot.rows classSlots,
    ∃ word ∈ row.head?, word ∈ keywords ∧ '\n' ∉ word := by
  decide

/-- A constant begins with an upper-case letter at the very beginning of its line. -/
theorem constantRule_of_first {line text : List Char} (isLine : IsLine line text)
    (first : ∀ c ∈ line.head?, upperCase.first.mem c = false) :
    constantRule.hits text (.ofText text) = [] := by
  obtain ⟨tail, rfl, feed⟩ := isLine.exists_tail
  apply constantRule_heads.hits_of_first isLine
  intro c here
  have lower := head_of_tail (by decide) feed first c here
  simp [Regex.begins, NameForm.regex, seqs, assignment, nullable, lower]

theorem lower_of_blank {c : Char} (blank : blank.mem c = true) : upperCase.first.mem c = false := by
  rcases blank_mem_iff.mp blank with rfl | rfl <;> decide

/-- No keyword begins with an upper-case letter. -/
theorem lower_of_keyword {word : List Char} (listed : word ∈ keywords) {c : Char}
    (first : c ∈ word.head?) : upperCase.first.mem c = false := by
  have checked : keywords.all (fun word => word.head?.all fun c => !upperCase.first.mem c) = true := by
    decide
  have here := List.all_eq_true.mp checked word listed
  rw [Option.mem_def.mp first] at here
  simpa using here

theorem constantRule_of_words {word pad head rest text : List Char} {words : List (List Char)}
    (listed : word ∈ keywords) (blanks : Blanks pad)
    (spaced : Spaced (word :: words) head) (isLine : IsLine (pad ++ (head ++ rest)) text) :
    constantRule.hits text (.ofText text) = [] := by
  apply constantRule_of_first isLine
  intro c first
  rcases spaced.first blanks first with blank | first
  · exact lower_of_blank blank
  · exact lower_of_keyword listed first

theorem idle_of_upperCase {name : List Char} (named : upperCase.Names name) (rest : List Char) :
    firstWord (name ++ rest) ∉ keywords := by
  cases name with
  | nil => exact named.elim
  | cons c w =>
    intro listed
    have solid : blank.mem c = false := by
      cases blank : blank.mem c with
      | false => rfl
      | true => exact absurd named.1 (by simp [lower_of_blank blank])
    have first : firstWord (c :: w ++ rest) = c :: (w ++ rest).takeWhile fun c => !blank.mem c := by
      simp [firstWord, solid]
    -- The first word begins with the letter that begins the name.
    have lower := lower_of_keyword (first ▸ listed) rfl
    rw [named.1] at lower
    contradiction

/-- An opening bracket ends a name, with or without blanks in front of it. -/
theorem bracket_ends {gap : List Char} (spread : Blanks gap) (rest : List Char) :
    identifier.Ends (gap ++ '(' :: rest) := by
  intro c first
  cases gap with
  | nil =>
    obtain rfl : '(' = c := by simpa using first
    decide
  | cons d gap =>
    obtain rfl : d = c := by simpa using first
    rcases blank_mem_iff.mp (spread d List.mem_cons_self) with rfl | rfl <;> decide

theorem takes_bracket {gap rest : List Char} (spread : Blanks gap) {o : Point}
    (behind : o.rest = gap ++ '(' :: rest) : ∃ q, (seqs [many blank, .char '(']).Takes o q := by
  obtain ⟨a, reads, next⟩ := Point.exists_reads behind
  exact ⟨_, a, takes_run.mpr ⟨gap, Nat.zero_le _, spread, reads⟩, rest, next, rfl⟩

/-- Something else than a further sign of equality, or nothing, follows an assignment. -/
theorem takes_assigned {value tail : List Char} (assigned : value.head? ≠ some '=')
    (feed : ∀ c ∈ tail.head?, c = '\n') {o : Point} (behind : o.rest = value ++ tail) :
    ∃ q, (Regex.alt (.set (.compl (.single '='))) (.assert .lineEnd)).Takes o q := by
  cases rest : value ++ tail with
  | nil => exact ⟨o, .inr ⟨by simp [Assertion.holds, behind, rest], rfl⟩⟩
  | cons c cs =>
    have other : (CharSet.compl (.single '=')).mem c = true := by
      have first : c ∈ (value ++ tail).head? := by simp [rest]
      rw [CharSet.mem, Bool.not_eq_true', ← Bool.not_eq_true, CharSet.mem_single]
      rintro rfl
      cases value with
      | nil => exact absurd (feed _ first) (by decide)
      | cons d value => exact assigned first
    exact ⟨_, .inl ⟨c, other, cs, by rw [behind, rest], rfl⟩⟩

theorem takes_assignment {gap value tail : List Char} {hint : Option (List Char)}
    (spread : Blanks gap) (plain : ∀ t ∈ hint, '=' ∉ t ∧ '\n' ∉ t)
    (assigned : value.head? ≠ some '=') (feed : ∀ c ∈ tail.head?, c = '\n') {o : Point}
    (behind : o.rest = gap ++ (hint.elim [] (':' :: ·) ++ '=' :: (value ++ tail))) :
    ∃ q, (seqs assignment).Takes o q := by
  obtain ⟨a, readsGap, rest₁⟩ := Point.exists_reads behind
  obtain ⟨b, readsHint, rest₂⟩ := Point.exists_reads rest₁
  -- A hint has no sign of equality, so the first such sign is the one behind it.
  have hinted : (maybe (seqs [.char ':', many (except ['=', '\n'])])).Takes a b := by
    cases hint with
    | none => exact takes_optional.mpr (.inl readsHint)
    | some t =>
      obtain ⟨c, colon, reads⟩ := readsHint.uncons
      obtain ⟨sign, feed⟩ := plain t rfl
      have others : ∀ d ∈ t, (except ['=', '\n']).mem d = true := by
        intro d listed
        rw [mem_except, List.mem_pair, not_or]
        constructor
        · rintro rfl
          exact sign listed
        · rintro rfl
          exact feed listed
      exact takes_optional.mpr (.inr ⟨c, colon, takes_run.mpr ⟨t, Nat.zero_le _, others, reads⟩⟩)
  obtain ⟨c, sign, rest₃⟩ := Point.exists_reads (w := ['=']) rest₂
  obtain ⟨q, last⟩ := takes_assigned assigned feed rest₃
  exact ⟨q, a, takes_run.mpr ⟨gap, Nat.zero_le _, spread, readsGap⟩, b, hinted, c, sign, last⟩

theorem assignment_ends {gap rest : List Char} {hint : Option (List Char)}
    (spread : Blanks gap) :
    upperCase.Ends (gap ++ (hint.elim [] (':' :: ·) ++ '=' :: rest)) := by
  intro c first
  cases gap with
  | cons d gap =>
    obtain rfl : d = c := by simpa using first
    rcases blank_mem_iff.mp (spread d List.mem_cons_self) with rfl | rfl <;> decide
  | nil =>
    cases hint with
    | none =>
      obtain rfl : '=' = c := by simpa using first
      decide
    | some t =>
      obtain rfl : ':' = c := by simpa using first
      decide

theorem constantRule_of_constant {name gap value text : List Char} {hint : Option (List Char)}
    (named : upperCase.Names name) (spread : Blanks gap)
    (plain : ∀ t ∈ hint, '=' ∉ t ∧ '\n' ∉ t) (assigned : value.head? ≠ some '=')
    (isLine : IsLine (name ++ (gap ++ (hint.elim [] (':' :: ·) ++ '=' :: value))) text) :
    constantRule.hits text (.ofText text) =
      [⟨String.ofList name, .constant, 1, name.head? != some '_'⟩] := by
  obtain ⟨tail, shape, feed⟩ := isLine.exists_tail
  have whole : (Point.start text).rest =
      name ++ (gap ++ (hint.elim [] (':' :: ·) ++ '=' :: (value ++ tail))) := by
    simp [Point.start, shape]
  obtain ⟨b, reads, behind⟩ := Point.exists_reads whole
  obtain ⟨q, last⟩ := takes_assignment spread plain assigned feed behind
  refine constantRule_heads.hits_eq_singleton isLine
    (takes_seqs_cons.mpr ⟨b, NameForm.takes_iff.mpr ⟨name, named, reads⟩, last⟩) ?_
  -- Nothing stands in front of the name.
  rintro a name' rest rfl named' ends' found
  exact (NameForm.eq_of_names named' named ends' (assignment_ends spread) (found.symm.trans whole)).1

/-- A line declares its symbol and no other one. -/
theorem declared_line (line : Line) {text : List Char} (isLine : IsLine line.chars text) :
    declared [functionRule, classRule, constantRule] text = (line.symbol? 1).toList := by
  apply declared_of_hits
  rw [List.flatMap_cons, List.flatMap_cons, List.flatMap_singleton]
  cases line with
  | function isAsync pad head name gap rest indented words named spread single =>
    -- Which words begin the line decides between the two rules with keywords.
    have goes := functionRule_keyed.goes_of_names named (gap ++ '(' :: rest)
    have function := functionRule_keyed.hits_of_words (by cases isAsync <;> decide) indented
      words goes isLine (by cases isAsync <;> decide) rfl named (bracket_ends spread rest)
      fun tail o behind => takes_bracket spread (by rw [behind, List.append_assoc]; rfl)
    have none := classRule_keyed.hits_of_foreign (by cases isAsync <;> decide) indented
      words goes isLine (by cases isAsync <;> decide)
    have none' : constantRule.hits text (.ofText text) = [] := by
      cases isAsync with
      | false => exact constantRule_of_words (by decide) indented words isLine
      | true => exact constantRule_of_words (by decide) indented words isLine
    rw [function, none, none']
    rfl
  | type pad head name rest indented words named ends single =>
    have goes := classRule_keyed.goes_of_names named rest
    have none := functionRule_keyed.hits_of_foreign (by decide) indented words goes isLine
      (by decide)
    have type := classRule_keyed.hits_of_words (by decide) indented words goes isLine
      (by decide) rfl named ends fun _ o _ => ⟨o, rfl⟩
    have none' := constantRule_of_words (by decide) indented words isLine
    rw [none, type, none']
    rfl
  | constant name gap hint value named spread plain assigned single =>
    -- The name of a constant is none of the keywords, for these are in lower case.
    have idle := idle_of_upperCase named (gap ++ (hint.elim [] (':' :: ·) ++ '=' :: value))
    rw [functionRule_keyed.hits_of_idle keywords_of_function isLine idle,
      classRule_keyed.hits_of_idle keywords_of_class isLine idle,
      constantRule_of_constant named spread plain assigned isLine]
    rfl
  | filler chars indented idle single =>
    rw [functionRule_keyed.hits_of_idle keywords_of_function isLine idle,
      classRule_keyed.hits_of_idle keywords_of_class isLine idle,
      constantRule_of_first isLine fun c first => lower_of_blank (indented c first)]
    rfl

/-- Lines of declarations declare one symbol each, in their order, and nothing else is declared. -/
theorem exports?_of_lines (lines : List Line) :
    python.exports? (Text.join "\n" (lines.map fun line => String.ofList line.chars)) =
      some (lines.zipIdx.filterMap fun e => e.1.symbol? (e.2 + 1)) := by
  apply exports?_of_each exportRules_eq (python_linewise _ exportRules_eq) Line.symbol?
  · intro line n
    simp [Line.symbol?, Function.comp_def, Export.down, Nat.add_comm]
  · exact Line.single
  · exact fun line text => declared_line line
  · simp [python]

theorem exports?_of_lines_mixed : python.exports?
    "async def run(self):\n    return 1\nLIMIT: int = 3\nclass _Box" =
      some [⟨"run", .function, 1, true⟩, ⟨"LIMIT", .constant, 3, true⟩, ⟨"_Box", .type, 4, false⟩] := by
  have inner : ∀ c ∈ "    return 1".toList.head?, blank.mem c = true := by
    rintro c ⟨⟩
    decide
  have found := exports?_of_lines
    [.function true [] ("async".toList ++ ([' '] ++ ("def".toList ++ ([' '] ++ [])))) "run".toList []
      "self):".toList .nil (.cons (by decide) (by simp) .space (.cons (by decide) (by simp) .space .nil))
      ⟨by decide, Nat.zero_le _, List.all_eq_true.mp (by decide)⟩ .nil (by decide),
    .filler "    return 1".toList inner (by decide) (by decide),
    .constant "LIMIT".toList [] (some " int ".toList) " 3".toList
      ⟨by decide, by decide, List.all_eq_true.mp (by decide)⟩ .nil (by decide) (by decide) (by decide),
    .type [] ("class".toList ++ ([' '] ++ [])) "_Box".toList [] .nil
      (.cons (by decide) (by simp) .space .nil)
      ⟨by decide, Nat.zero_le _, List.all_eq_true.mp (by decide)⟩ (by simp [NameForm.Ends]) (by decide)]
  have source : Text.join "\n" ["async def run(self):", "    return 1", "LIMIT: int = 3", "class _Box"] =
      "async def run(self):\n    return 1\nLIMIT: int = 3\nclass _Box" := by
    decide +kernel
  rw [← source]
  exact found

end Ripple.Language.Python
