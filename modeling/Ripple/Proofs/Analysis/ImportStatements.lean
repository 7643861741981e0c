import Ripple.Proofs.Analysis.ExportUses
import Ripple.Proofs.Language.MemberImports
import Ripple.Proofs.Language.Rows

/-!
The extent of import statements. A statement that may go over several lines is taken in as a whole
by the pattern for its form, if no line before it begins like an import: nothing is found before the
statement, and whatever is found from its beginning on reaches its end. So no use of a symbol is
recorded on its lines.
-/

namespace Ripple

namespace Language

open Regex Language.Part Text

/-- What the import statements of the languages with forms over several lines begin with. -/
def openers : List String := ["from", "import", "export", "use", "pub", "\x7d"]

/-- A text begins like an import statement. -/
def OpensImport (text : List Char) : Prop := ∃ opener ∈ openers, opener.toList <+: text

instance (text : List Char) : Decidable (OpensImport text) :=
  inferInstanceAs (Decidable (∃ opener ∈ openers, opener.toList <+: text))

/-- A line that does not begin like an import statement, whatever blanks stand in front. -/
structure IdleLine where
  chars : List Char
  single : '\n' ∉ chars
  idle : ¬ OpensImport (chars.dropWhile blank.mem)

theorem IdleLine.single_of_mem (lines : List IdleLine) :
    ∀ line ∈ lines.map IdleLine.chars, '\n' ∉ line := by
  intro line listed
  obtain ⟨l, _, rfl⟩ := List.mem_map.mp listed
  exact l.single

/-- An import statement that may go over several lines. -/
inductive Statement where
  | python (path inner : List Char) (some : path ≠ [])
      (chars : ∀ c ∈ path, Unicode.isWord c = true ∨ c = '.') (inside : ')' ∉ inner)
  | javaScript (inner path : List Char) (inside : '\x7d' ∉ inner) (some : path ≠ [])
      (chars : ∀ c ∈ path, c ≠ '\'' ∧ c ≠ '"' ∧ c ≠ '\n')
  | go (inner : List Char) (inside : ')' ∉ inner)
  | rust (inner : List Char) (inside : ';' ∉ inner)

namespace Statement

def language : Statement → Language
  | python .. => .python
  | javaScript .. => .javaScript
  | go .. => .go
  | rust .. => .rust

/-- The statement up to the character that closes it. -/
def front : Statement → List Char
  | python path inner .. => "from ".toList ++ (path ++ (" import (".toList ++ inner))
  | javaScript inner path .. => "import \x7b".toList ++ (inner ++ ("\x7d from '".toList ++ path))
  | go inner _ => "import (".toList ++ inner
  | rust inner _ => "use ".toList ++ inner

def closing : Statement → Char
  | python .. | go .. => ')'
  | javaScript .. => '\''
  | rust .. => ';'

def chars (s : Statement) : List Char := s.front ++ [s.closing]

theorem closing_ne (s : Statement) : s.closing ≠ '\n' := by
  cases s <;> simp [closing]

end Statement

/-- An expression marks a statement as a whole: it begins where a line begins like an import, it is
found at the statement, and it does not end before it. -/
structure Marks (r : Regex) (statement : List Char) : Prop where
  steady : r.steady = true
  consumes : r.nullable = false
  opens : ∀ {text u p q}, (Point.start text).Reads u p → r.Takes p q →
    WholeLines u ∧ ∃ pad rest, Blanks pad ∧ p.rest = pad ++ rest ∧ OpensImport rest
  found : ∀ {text u p behind}, (Point.start text).Reads u p → WholeLines u →
    p.rest = statement ++ behind → ∃ q, r.Takes p q
  covers : ∀ {p q behind w}, p.rest = statement ++ behind → r.Takes p q → p.Reads w q →
    statement <+: w

namespace Marks

theorem opener_solid {opener : String} (listed : opener ∈ openers) {c : Char}
    (member : c ∈ opener.toList) : blank.mem c = false ∧ c ≠ '\n' := by
  have all : openers.all (fun opener =>
      opener.toList.all fun c => !blank.mem c && c ≠ '\n') = true := by decide
  simpa using List.all_eq_true.mp (List.all_eq_true.mp all opener listed) c member

/-- What a line with a line feed behind it begins like, the line alone begins like. -/
theorem opens_of_line {pad rest line tail : List Char} (blanks : Blanks pad) (opens : OpensImport rest)
    (single : '\n' ∉ line) (same : line ++ '\n' :: tail = pad ++ rest) :
    OpensImport (line.dropWhile blank.mem) := by
  obtain ⟨opener, listed, more, rfl⟩ := opens
  have plain : '\n' ∉ pad ++ opener.toList := by
    rw [List.mem_append, not_or]
    exact ⟨blanks.not_mem (by decide), fun feed => (opener_solid listed feed).2 rfl⟩
  rw [← List.append_assoc] at same
  obtain ⟨y, rfl, _⟩ := split_behind plain same.symm
  rw [List.append_assoc, List.dropWhile_append_of_pos blanks]
  refine ⟨opener, listed, ?_⟩
  -- The opener begins with something else than a blank, so the blanks end in front of it.
  cases chars : opener.toList with
  | nil => exact List.nil_prefix
  | cons c cs =>
    have first : blank.mem c = false := (opener_solid listed (c := c) (by simp [chars])).1
    rw [List.cons_append, List.dropWhile_cons_of_neg (by simp [first])]
    exact List.prefix_append (c :: cs) y

section Search

variable {r : Regex} {statement : List Char} (marks : Marks r statement)

include marks

/-- No way begins within idle lines. -/
theorem silent {lines : List IdleLine} {tail v t : List Char} {c : Char} {o q : Point}
    (cut : rows (lines.map IdleLine.chars) = v ++ c :: t)
    (before : (Point.start (rows (lines.map IdleLine.chars) ++ tail)).Reads v o) :
    ¬ r.Takes o q := by
  intro takes
  obtain ⟨whole, pad, rest, blanks, padded, opens⟩ := marks.opens before takes
  rcases rows_cut (IdleLine.single_of_mem lines) whole before.rest_eq.symm with
    ⟨earlier, line, later, split, _, begins⟩ | ⟨w, _, rfl, _⟩
  · -- The way begins with one of the lines.
    obtain ⟨l, _, rfl⟩ : ∃ l ∈ lines, IdleLine.chars l = line := by
      rw [← List.mem_map, split]
      simp
    exact l.idle (opens_of_line blanks opens l.single (begins.symm.trans padded))
  · -- The way begins behind the lines, but `v` is only a part of them.
    have lengths := congrArg List.length cut
    simp only [List.length_append, List.length_cons] at lengths
    omega

/-- Behind idle lines, the first match begins with the statement and reaches its end. -/
theorem exists_match (lines : List IdleLine) (behind : List Char) :
    ∃ m ∈ r.matchesOf (rows (lines.map IdleLine.chars) ++ (statement ++ behind)),
      m.start.offset = Point.size (rows (lines.map IdleLine.chars)) ∧
      Point.size (rows (lines.map IdleLine.chars) ++ statement) ≤ m.stop.offset := by
  obtain ⟨p, reads, rest⟩ := Point.exists_reads
    (p := .start (rows (lines.map IdleLine.chars) ++ (statement ++ behind))) rfl
  -- There is a way behind the lines, and none before, so it is the first that the search finds.
  obtain ⟨q, takes⟩ := marks.found reads (rows_wholeLines _) rest
  obtain ⟨m, preferred⟩ := exists_preferred marks.steady takes
  obtain ⟨ms, shape, _⟩ := exists_matchesOf_eq_cons marks.steady marks.consumes preferred reads
    fun v c t o q cut before => marks.silent cut before
  have member := List.mem_of_head? preferred
  have way : r.Takes p m.stop := outcomes_takes member
  obtain ⟨w, read, _⟩ := way.reads
  obtain ⟨more, rfl⟩ := marks.covers rest way read
  have start : m.start = p := outcomes_start member
  have first : p.offset = Point.size (rows (lines.map IdleLine.chars)) := by
    simpa [Point.start] using reads.offset_eq
  refine ⟨m, shape ▸ List.mem_cons_self, by rw [start, first], ?_⟩
  rw [read.offset_eq, first, Point.size_append, Point.size_append]
  omega

end Search

section Forms

variable {heads tails : List Regex}

/-- Ways through an indented expression begin where a line begins, behind blanks. -/
theorem opens_of_indent (heading : ∀ {a b}, (seqs heads).Takes a b → OpensImport a.rest)
    {text u : List Char} {p q : Point} (reads : (Point.start text).Reads u p)
    (takes : (seqs (indent ++ (heads ++ tails))).Takes p q) :
    WholeLines u ∧ ∃ pad rest, Blanks pad ∧ p.rest = pad ++ rest ∧ OpensImport rest := by
  obtain ⟨begins, pad, o, blanks, padding, further⟩ := (takes_indent_iff reads).mp takes
  obtain ⟨b, head, _⟩ := takes_seqs_append.mp further
  exact ⟨begins, pad, o.rest, blanks, padding.rest_eq, heading head⟩

theorem found_of_accepts {rs : List Regex} {statement : List Char} (accepts : Accepts rs statement)
    {text u behind : List Char} {p : Point} (reads : (Point.start text).Reads u p)
    (whole : WholeLines u) (rest : p.rest = statement ++ behind) :
    ∃ q, (seqs (indent ++ rs)).Takes p q := by
  obtain ⟨q, read, _⟩ := Point.exists_reads rest
  exact ⟨q, accepts.indented reads whole read⟩

/-- A way that ends with the closing character reaches the first one. -/
theorem covers_of_closing {rs : List Regex} {front : List Char} {c : Char} (absent : c ∉ front)
    {p q : Point} {behind w : List Char} (rest : p.rest = (front ++ [c]) ++ behind)
    (takes : (seqs (rs ++ [char c])).Takes p q) (read : p.Reads w q) : front ++ [c] <+: w := by
  obtain ⟨o, first, last⟩ := takes_seqs_append.mp takes
  obtain ⟨v, inner, _⟩ := first.reads
  have whole : p.Reads (v ++ [c]) q := inner.trans last
  have same : front ++ c :: behind = v ++ c :: q.rest := by
    have both := rest.symm.trans whole.rest_eq
    simpa using both
  rw [read.chars_unique whole]
  -- The statement has the character at its end alone, the way perhaps earlier in what it reads.
  rcases cut_char absent same with ⟨rfl, _⟩ | ⟨y, rfl, _⟩
  · exact List.prefix_rfl
  · exact ⟨y ++ [c], by simp⟩

/-- An indented expression that ends with the closing character of a statement marks it. -/
theorem of_closing {front : List Char} {c : Char}
    (fine : (seqs (indent ++ (heads ++ (tails ++ [char c])))).steady = true ∧
      (seqs (indent ++ (heads ++ (tails ++ [char c])))).nullable = false)
    (heading : ∀ {a b}, (seqs heads).Takes a b → OpensImport a.rest)
    (accepts : Accepts (heads ++ (tails ++ [char c])) (front ++ [c])) (absent : c ∉ front) :
    Marks (seqs (indent ++ (heads ++ (tails ++ [char c])))) (front ++ [c]) where
  steady := fine.1
  consumes := fine.2
  opens := opens_of_indent heading
  found := found_of_accepts accepts
  covers rest takes read := by
    rw [← List.append_assoc, ← List.append_assoc] at takes
    exact covers_of_closing absent rest takes read

theorem heading_of_letters {keyword : String} (listed : keyword ∈ openers) {a b : Point}
    (takes : (seqs (letters keyword)).Takes a b) : OpensImport a.rest :=
  ⟨keyword, listed, b.rest, (takes_chars.mp takes).rest_eq.symm⟩

end Forms

end Marks

namespace Python

def blockTails : List Regex :=
  several blank :: several dotted :: several blank :: (letters "import" ++
    [many blank, .char '(', many (.compl (.single ')'))])

theorem blockPattern_regex : blockPattern.regex =
    seqs (indent ++ (letters "from" ++ (blockTails ++ [char ')']))) := by
  rw [blockPattern, Pattern.ofText_eq rfl]
  rfl

theorem block_marks {path inner : List Char} (some : path ≠ [])
    (chars : ∀ c ∈ path, Unicode.isWord c = true ∨ c = '.') (inside : ')' ∉ inner) :
    Marks blockPattern.regex
      ("from ".toList ++ (path ++ (" import (".toList ++ inner)) ++ [')']) := by
  have first : "from ".toList = "from".toList ++ [' '] := by decide
  have second : " import (".toList = [' '] ++ ("import".toList ++ ([' '] ++ ['('])) := by decide
  rw [blockPattern_regex]
  apply Marks.of_closing (by decide) (Marks.heading_of_letters (by decide))
  · rw [first, second]
    simp only [List.append_assoc]
    have dots : ∀ c ∈ path, dotted.mem c = true :=
      fun c listed => dotted_mem_iff.mpr (chars c listed)
    -- The parts of the pattern, from its first word to the closing bracket.
    exact (Accepts.chars _).append <| (Accepts.run (by decide) Blanks.space).append <|
      (Accepts.run (List.length_pos_iff.mpr some) dots).append <|
      (Accepts.run (by decide) Blanks.space).append <| (Accepts.chars _).append <|
      (Accepts.run (by decide) Blanks.space).append <| (Accepts.chars ['(']).append <|
      (Accepts.without inside).append (Accepts.chars [')'])
  · -- No match ends earlier, for there is no closing bracket before the last character.
    have bracket : ')' ∉ path := by
      intro listed
      rcases chars _ listed with word | dot
      · exact absurd word (by decide)
      · exact absurd dot (by decide)
    have literals : ')' ∉ "from ".toList ∧ ')' ∉ " import (".toList := by decide
    simp only [List.mem_append, not_or]
    exact ⟨literals.1, bracket, literals.2, inside⟩

end Python

namespace Go

theorem block_marks {inner : List Char} (inside : ')' ∉ inner) :
    Marks importBlockPattern.regex ("import (".toList ++ inner ++ [')']) := by
  have first : "import (".toList = "import".toList ++ ([' '] ++ ['(']) := by decide
  have shape : importBlockPattern.regex = seqs (indent ++ (letters "import" ++
      ([many blank, char '(', group 1 (many (.compl (.single ')')))] ++ [char ')']))) :=
    importBlockPattern_regex
  rw [shape]
  apply Marks.of_closing (by decide) (Marks.heading_of_letters (by decide))
  · rw [first]
    simp only [List.append_assoc]
    exact (Accepts.chars _).append <| (Accepts.run (by decide) Blanks.space).append <|
      (Accepts.chars ['(']).append <| (Accepts.group (Accepts.without inside)).append <|
      Accepts.chars [')']
  · have literal : ')' ∉ "import (".toList := by decide
    rw [List.mem_append, not_or]
    exact ⟨literal, inside⟩

end Go

namespace Rust

theorem useBlockPattern_regex : useBlockPattern.regex =
    seqs (indent ++ ((visibility :: letters "use") ++
      ([several blank, many (.compl (.single ';'))] ++ [char ';']))) := by
  rw [useBlockPattern, Pattern.ofText_eq rfl]
  rfl

theorem heading_use {a b : Point} (takes : (seqs (visibility :: letters "use")).Takes a b) :
    OpensImport a.rest := by
  obtain ⟨o, modifier, keyword⟩ := takes_seqs_cons.mp takes
  rcases takes_optional.mp modifier with same | modifier
  · rw [same] at keyword
    exact Marks.heading_of_letters (by decide) keyword
  · obtain ⟨_, modifier, _⟩ := takes_seqs_append.mp modifier
    exact Marks.heading_of_letters (by decide) modifier

theorem block_marks {inner : List Char} (inside : ';' ∉ inner) :
    Marks useBlockPattern.regex ("use ".toList ++ inner ++ [';']) := by
  have first : "use ".toList = [] ++ ("use".toList ++ [' ']) := by decide
  rw [useBlockPattern_regex]
  apply Marks.of_closing (by decide) heading_use
  · rw [first]
    simp only [List.append_assoc]
    exact (Accepts.optional (.inl rfl)).append <| (Accepts.chars _).append <|
      (Accepts.run (by decide) Blanks.space).append <| (Accepts.without inside).append <|
      Accepts.chars [';']
  · have literal : ';' ∉ "use ".toList := by decide
    rw [List.mem_append, not_or]
    exact ⟨literal, inside⟩

end Rust

namespace JavaScript

def blockHead : Regex := alts [seqs (letters "import"), seqs (letters "export")]

/-- The braces with the names between them, up to the closing one. -/
def blockNames : List Regex :=
  [many (except ['\'', '"', '\n', ';', '\x7b']), .char '\x7b', many (.compl (.single '\x7d'))]

def blockSource : List Regex := many blank :: (letters "from" ++ [many blank])

theorem blockPattern_regex : blockPattern.regex =
    seqs (indent ++ ([blockHead] ++ (blockNames ++ ([char '\x7d'] ++
      (blockSource ++ ([quote] ++ ([several plain] ++ [quote]))))))) := by
  rw [blockPattern, Pattern.ofText_eq rfl]
  rfl

theorem heading_block {a b : Point} (takes : (seqs [blockHead]).Takes a b) : OpensImport a.rest := by
  rcases takes with keyword | keyword
  · exact Marks.heading_of_letters (by decide) keyword
  · exact Marks.heading_of_letters (by decide) keyword

theorem accepts_quote : Accepts [quote] ['\''] :=
  fun _ _ reads => takes_quote_iff.mpr ⟨'\'', .inl rfl, reads⟩

def isQuote (c : Char) : Bool := c = '\'' || c = '"'

theorem reads_quote {p q : Point} (takes : (seqs [quote]).Takes p q) :
    ∃ c, isQuote c = true ∧ p.Reads [c] q := by
  obtain ⟨c, isQuote, reads⟩ := takes_quote_iff.mp takes
  exact ⟨c, by simpa [JavaScript.isQuote] using isQuote, reads⟩

/-- What is read up to a closing brace, a quote and another quote reaches the first brace, the first
quote behind it and the next one at least. -/
theorem reaches_quoted {s t u behind x y z r : List Char} {k l : Char} (brace : '\x7d' ∉ s)
    (free : ∀ c ∈ t, isQuote c = false) (quoteless : ∀ c ∈ u, isQuote c = false)
    (opening : isQuote k = true) (closing : isQuote l = true)
    (same : s ++ '\x7d' :: (t ++ '\'' :: (u ++ '\'' :: behind)) =
      x ++ '\x7d' :: (y ++ k :: (z ++ l :: r))) :
    s ++ '\x7d' :: (t ++ '\'' :: (u ++ ['\''])) <+: x ++ '\x7d' :: (y ++ k :: (z ++ [l])) := by
  -- Each mark is looked for behind the one before it.
  obtain ⟨v, toBrace, same⟩ := reaches_mark (· = '\x7d')
    (fun c listed => decide_eq_false fun equal => brace (equal ▸ listed)) (decide_eq_true rfl) same
  rw [← List.append_assoc] at same
  obtain ⟨v', toOpening, same⟩ := reaches_mark isQuote free opening same
  rw [← List.append_assoc] at same
  obtain ⟨more, toClosing, _⟩ := reaches_mark isQuote quoteless closing same
  have first := congrArg (· ++ (y ++ k :: (z ++ [l]))) toBrace
  have second := congrArg (· ++ (z ++ [l])) toOpening
  simp only [List.append_assoc, List.cons_append, List.nil_append] at first second toClosing
  exact ⟨more, by simp [first, second, toClosing]⟩

theorem covers_block {inner path : List Char} (inside : '\x7d' ∉ inner)
    (chars : ∀ c ∈ path, c ≠ '\'' ∧ c ≠ '"' ∧ c ≠ '\n') {front : List Regex} {p q : Point}
    {behind w : List Char}
    (rest : p.rest =
      ("import \x7b".toList ++ (inner ++ ("\x7d from '".toList ++ path)) ++ ['\'']) ++ behind)
    (takes : (seqs (front ++ ([char '\x7d'] ++
      (blockSource ++ ([quote] ++ ([several plain] ++ [quote])))))).Takes p q)
    (read : p.Reads w q) :
    "import \x7b".toList ++ (inner ++ ("\x7d from '".toList ++ path)) ++ ['\''] <+: w := by
  obtain ⟨a, first, takes⟩ := takes_seqs_append.mp takes
  obtain ⟨b, brace, takes⟩ := takes_seqs_append.mp takes
  obtain ⟨c, source, takes⟩ := takes_seqs_append.mp takes
  obtain ⟨d, opening, takes⟩ := takes_seqs_append.mp takes
  obtain ⟨e, module, closing⟩ := takes_seqs_append.mp takes
  obtain ⟨x, readsFirst, _⟩ := first.reads
  obtain ⟨y, readsSource, _⟩ := source.reads
  obtain ⟨k, isOpening, readsOpening⟩ := reads_quote opening
  obtain ⟨z, readsModule, _⟩ := module.reads
  obtain ⟨l, isClosing, readsClosing⟩ := reads_quote closing
  have whole := readsFirst.trans ((show a.Reads ['\x7d'] b from brace).trans (readsSource.trans
    (readsOpening.trans (readsModule.trans readsClosing))))
  obtain rfl := read.chars_unique whole
  -- Statement and way are cut alike, so that their marks can be compared.
  have literals : "\x7d from '".toList = '\x7d' :: (" from ".toList ++ ['\'']) ∧
      '\x7d' ∉ "import \x7b".toList ∧ " from ".toList.all (fun c => !isQuote c) = true := by decide
  have same := rest.symm.trans read.rest_eq
  rw [literals.1] at same ⊢
  simp only [List.append_assoc, List.cons_append, List.nil_append] at same ⊢
  rw [← List.append_assoc] at same ⊢
  refine reaches_quoted ?_ ?_ ?_ isOpening isClosing same
  · rw [List.mem_append, not_or]
    exact ⟨literals.2.1, inside⟩
  · simpa using literals.2.2
  · intro c listed
    obtain ⟨single, double, _⟩ := chars c listed
    simp [isQuote, single, double]

theorem block_marks {inner path : List Char} (inside : '\x7d' ∉ inner) (some : path ≠ [])
    (chars : ∀ c ∈ path, c ≠ '\'' ∧ c ≠ '"' ∧ c ≠ '\n') :
    Marks blockPattern.regex
      ("import \x7b".toList ++ (inner ++ ("\x7d from '".toList ++ path)) ++ ['\'']) := by
  rw [blockPattern_regex]
  refine ⟨by decide, by decide, Marks.opens_of_indent heading_block, Marks.found_of_accepts ?_, ?_⟩
  · have first : "import \x7b".toList = "import".toList ++ ([' '] ++ ['\x7b']) := by decide
    have second : "\x7d from '".toList =
        ['\x7d'] ++ ([' '] ++ ("from".toList ++ ([' '] ++ ['\'']))) := by decide
    rw [first, second]
    simp only [List.append_assoc]
    -- The pattern has two words to begin with, and this is the first of them.
    have keyword : Accepts [blockHead] "import".toList :=
      fun _ _ reads => .inl (takes_chars.mpr reads)
    have space : ∀ c ∈ [' '], (except ['\'', '"', '\n', ';', '\x7b']).mem c = true := by
      simp [mem_except]
    exact keyword.append <| (Accepts.run (by decide) space).append <|
      (Accepts.chars ['\x7b']).append <| (Accepts.without inside).append <|
      (Accepts.chars ['\x7d']).append <| (Accepts.run (by decide) Blanks.space).append <|
      (Accepts.chars _).append <| (Accepts.run (by decide) Blanks.space).append <|
      accepts_quote.append <| (Accepts.run (List.length_pos_iff.mpr some)
        fun c listed => plain_mem_iff.mpr (chars c listed)).append accepts_quote
  · intro p q behind w rest takes read
    rw [← List.append_assoc, ← List.append_assoc] at takes
    exact covers_block inside chars rest takes read

end JavaScript

namespace Statement

/-- One of the import rules of the language marks the statement. -/
theorem exists_marks (s : Statement) :
    ∃ rule ∈ s.language.importRules, Marks rule.pattern.regex s.chars := by
  cases s with
  | python path inner some chars inside =>
    exact ⟨⟨Python.blockPattern, .extent⟩, by simp [language, Language.python],
      Python.block_marks some chars inside⟩
  | javaScript inner path inside some chars =>
    exact ⟨⟨JavaScript.blockPattern, .extent⟩, by simp [language, Language.javaScript],
      JavaScript.block_marks inside some chars⟩
  | go inner inside =>
    exact ⟨⟨Go.importBlockPattern, .quoted Go.quotedPattern⟩, by simp [language, Language.go],
      Go.block_marks inside⟩
  | rust inner inside =>
    exact ⟨⟨Rust.useBlockPattern, .extent⟩, by simp [language, Language.rust],
      Rust.block_marks inside⟩

/-- The lines of the statement are import lines, from the one behind the idle lines to the last. -/
theorem mem_importLines (s : Statement) (lines : List IdleLine) {behind : List Char}
    {source : String}
    (text : source.toList = rows (lines.map IdleLine.chars) ++ (s.chars ++ behind)) {n : Nat}
    (first : lines.length < n) (last : n ≤ lines.length + 1 + s.chars.count '\n') :
    n ∈ s.language.importLines source := by
  obtain ⟨rule, listed, marks⟩ := s.exists_marks
  obtain ⟨m, member, start, stop⟩ := marks.exists_match lines behind
  rw [← text] at member
  have span : (m.start.offset, m.stop.offset) ∈ s.language.importSpans source :=
    List.mem_flatMap.mpr ⟨rule, List.mem_append_left _ listed, List.mem_map_of_mem member⟩
  have feeds : (rows (lines.map IdleLine.chars)).count '\n' = lines.length := by
    rw [count_rows (IdleLine.single_of_mem lines), List.length_map]
  refine mem_importLines_iff.mpr ⟨_, span, ?_⟩
  -- The match begins behind the idle lines, and takes in the closing character.
  have begins : (LineIndex.ofText source.toList).lineOf m.start.offset = lines.length + 1 := by
    rw [start, text, Point.lineOf_size, feeds]
  have reaches : lines.length + 1 + s.chars.count '\n' ≤
      (LineIndex.ofText source.toList).lineOf (Nat.max (m.stop.offset - 1) m.start.offset) := by
    have upTo : source.toList =
        (rows (lines.map IdleLine.chars) ++ s.front) ++ (s.closing :: behind) := by
      simp [text, chars]
    have count : s.chars.count '\n' = s.front.count '\n' := by
      simp [chars, s.closing_ne]
    have within : Point.size (rows (lines.map IdleLine.chars) ++ s.front) ≤
        Nat.max (m.stop.offset - 1) m.start.offset := by
      refine Nat.le_trans ?_ (Nat.le_max_left _ _)
      have positive := s.closing.utf8Size_pos
      rw [chars, ← List.append_assoc, Point.size_append, Point.size_cons,
        Point.size_nil] at stop
      omega
    have line := Point.lineOf_size (rows (lines.map IdleLine.chars) ++ s.front)
      (s.closing :: behind)
    rw [← upTo, List.count_append, feeds, ← count] at line
    have mono := LineIndex.lineOf_mono source.toList within
    omega
  simp only [linesOf, List.mem_range'_1, begins]
  omega

end Statement

end Language

namespace Engine

open Ripple.Language

theorem not_sees_of_importLine (e : Engine) {fs : Files} {root : List OsString}
    {exports : List Export} {dependents : List OsString} {file : OsString} {source : String}
    {l : Language}
    (read : fs.readText (Path.join (Files.pathOf root) file) = .ok source)
    (written : e.table.ofPath? (Path.join (Files.pathOf root) file) = some l) {n : Nat}
    (imported : n ∈ l.importLines source) (name : String) :
    ¬ e.Sees fs root exports dependents name file n := by
  rintro ⟨use, recorded, inFile, number⟩
  rw [uses_trackUsages, usesAcross] at recorded
  split at recorded
  next =>
    cases compiled : wordPattern name with
    | error => simp [compiled] at recorded
    | ok pattern =>
      simp only [compiled] at recorded
      obtain ⟨file', _, recorded⟩ := List.mem_flatMap.mp recorded
      obtain rfl : file' = file := (file_of_mem_usesIn recorded).symm.trans inFile
      obtain ⟨line, kept, rfl⟩ := List.mem_map.mp recorded
      -- The use stands on a usable line, and the import lines are none of these.
      have usable := List.mem_of_mem_filter (List.mem_of_mem_take kept)
      rw [usableLines_eq e read] at usable
      obtain ⟨l', free, rfl⟩ := List.mem_map.mp usable
      have outside : l'.number ∉ e.skipped (Path.join (Files.pathOf root) file') source := by
        simpa using (List.mem_filter.mp free).2
      obtain rfl : l'.number = n := number
      rw [skipped, written] at outside
      exact outside imported
  next => cases recorded

/-- An import statement over several lines is taken in as a whole, if no line before it begins like
an import: each of its lines is an import line, and no use of whatever name is recorded there. -/
theorem statement_lines_unseen (s : Statement) (lines : List IdleLine) {behind : List Char}
    {source : String}
    (text : source.toList = Text.rows (lines.map IdleLine.chars) ++ (s.chars ++ behind)) {n : Nat}
    (first : lines.length < n) (last : n ≤ lines.length + 1 + s.chars.count '\n') :
    n ∈ s.language.importLines source ∧
    ∀ (e : Engine) (fs : Files) (root : List OsString) (exports : List Export)
      (dependents : List OsString) (file : OsString),
      fs.readText (Path.join (Files.pathOf root) file) = .ok source →
      e.table.ofPath? (Path.join (Files.pathOf root) file) = some s.language →
      ∀ name, ¬ e.Sees fs root exports dependents name file n := by
  have imported := s.mem_importLines lines text first last
  refine ⟨imported, fun e fs root exports dependents file read written name => ?_⟩
  exact not_sees_of_importLine e read written imported name

/-- A comment, an import over four lines and a use of what is imported. -/
def tasksSource : String := "# tasks\nfrom store import (\n    load,\n    save,\n)\nload(save)\n"

def tasksProject : Files := ⟨.dir [("tasks.py", .file tasksSource.toUTF8)], []⟩

def tasksComment : IdleLine := ⟨"# tasks".toList, by decide, by decide⟩

def tasksImport : Statement :=
  .python "store".toList "\n    load,\n    save,\n".toList (by decide)
    (fun c listed => .inl (List.all_eq_true.mp (by decide) c listed)) (by decide)

theorem read_tasksProject :
    tasksProject.readText (Path.join (Files.pathOf []) "tasks.py") = .ok tasksSource := by
  have found : tasksProject.read (Path.join (Files.pathOf []) "tasks.py") =
      .ok tasksSource.toUTF8 := rfl
  have decoded : Files.decode tasksSource.toUTF8 = .ok tasksSource :=
    Files.decode_eq_ok_iff.mpr rfl
  rw [Files.readText, found]
  exact decoded

theorem statement_lines_unseen_tasks :
    4 ∈ Language.python.importLines tasksSource ∧
    tasksProject.readText (Path.join (Files.pathOf []) "tasks.py") = .ok tasksSource ∧
    LanguageTable.builtin.ofPath? (Path.join (Files.pathOf []) "tasks.py") = some .python ∧
    ¬ Sees ⟨{}, .builtin⟩ tasksProject [] [⟨"save", .function, 1, true⟩] ["tasks.py"] "save"
      "tasks.py" 4 := by
  have text : tasksSource.toList = Text.rows ([tasksComment].map IdleLine.chars) ++
      (tasksImport.chars ++ "\nload(save)\n".toList) := by decide
  have unseen := statement_lines_unseen tasksImport [tasksComment] text (n := 4) (by decide)
    (by decide)
  exact ⟨unseen.1, read_tasksProject, rfl,
    unseen.2 ⟨{}, .builtin⟩ _ _ _ _ _ read_tasksProject rfl "save"⟩

end Engine

end Ripple
