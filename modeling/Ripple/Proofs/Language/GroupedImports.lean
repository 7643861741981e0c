import Ripple.Proofs.Language.ImportUnion
import Ripple.Proofs.Language.MemberImports
import Ripple.Proofs.Language.Rows

/-!
Blocks of imports in Go. A block imports what its modules import on lines of their own, and confirms
the same names: in either form, each line has two quotation marks, so what stands between two of them
without a line feed is the path of a module.
-/

namespace Ripple.Language.Go

open Regex Language.Part Text

/-- A module to import, with or without a label to use in the file. -/
structure ImportSpec where
  label? : Option (List Char)
  path : List Char
  labelled : ∀ label ∈ label?, label ≠ [] ∧ ∀ c ∈ label, Unicode.isWord c = true ∨ c = '.'
  nonempty : path ≠ []
  clean : ∀ c ∈ path, c ≠ '"' ∧ c ≠ '\n' ∧ c ≠ ')'
  begins : ∀ c ∈ path.head?, Unicode.isSpace c = false
  ends : ∀ c ∈ path.getLast?, Unicode.isSpace c = false

namespace ImportSpec

/-- What stands in front of the path. -/
def lead (s : ImportSpec) : List Char :=
  match s.label? with
  | none => []
  | some label => label ++ [' ']

def chars (s : ImportSpec) : List Char := s.lead ++ '"' :: (s.path ++ ['"'])

/-- The path is the name, or ends with it behind a slash. -/
def EndsWith (s : ImportSpec) (name : List Char) : Prop :=
  s.path = name ∨ ∃ dir, s.path = dir ++ '/' :: name

theorem lead_cases (s : ImportSpec) : s.lead = [] ∨
    ∃ label, s.lead = label ++ [' '] ∧ label ≠ [] ∧ ∀ c ∈ label, Python.dotted.mem c = true := by
  unfold lead
  cases label : s.label? with
  | none => exact .inl rfl
  | some name =>
    obtain ⟨some, chars⟩ := s.labelled name label
    exact .inr ⟨name, rfl, some, fun c listed => Python.dotted_mem_iff.mpr (chars c listed)⟩

theorem not_mem_lead (s : ImportSpec) {c : Char} (other : Python.dotted.mem c = false)
    (solid : c ≠ ' ') : c ∉ s.lead := by
  rcases s.lead_cases with none | ⟨label, shape, _, members⟩
  · simp [none]
  · rw [shape, List.mem_append, not_or, List.mem_singleton]
    refine ⟨fun listed => ?_, solid⟩
    rw [members c listed] at other
    contradiction

theorem not_mem_path (s : ImportSpec) : '"' ∉ s.path ∧ '\n' ∉ s.path ∧ ')' ∉ s.path :=
  ⟨fun listed => (s.clean _ listed).1 rfl, fun listed => (s.clean _ listed).2.1 rfl,
    fun listed => (s.clean _ listed).2.2 rfl⟩

theorem plain_path (s : ImportSpec) : ∀ c ∈ s.path, plain.mem c = true := by
  intro c listed
  simp [plain, mem_except, (s.clean c listed).1, (s.clean c listed).2.1]

theorem trim_path (s : ImportSpec) : trim s.path = s.path := trim_eq_self s.begins s.ends

end ImportSpec

/-- The lines of some modules, each behind the same text. -/
def specLines (front : List Char) (specs : List ImportSpec) : List (List Char) :=
  specs.map fun s => front ++ s.chars

def blockOpening : List Char := "import (".toList

def blockBody (specs : List ImportSpec) : List Char := '\n' :: rows (specLines ['\t'] specs)

/-- A block of imports, each on a line of its own behind a tab. -/
def grouped (specs : List ImportSpec) : List Char := blockOpening ++ (blockBody specs ++ [')'])

def importWord : List Char := "import ".toList

/-- A single import for each module. -/
def separate (specs : List ImportSpec) : List Char := rows (specLines importWord specs)

/-- What is quoted in a text, and on one line, is the path of a module. -/
def QuotesPaths (specs : List ImportSpec) (text : List Char) : Prop :=
  ∀ u w v, text = u ++ '"' :: (w ++ '"' :: v) → (∀ c ∈ w, plain.mem c = true) →
    ∃ s ∈ specs, s.path = w

theorem plain_mem_iff {c : Char} : plain.mem c = true ↔ c ≠ '"' ∧ c ≠ '\n' := by
  simp [plain, mem_except]

theorem quotesPaths_rows {front tail : List Char} (noFront : '"' ∉ front) (noTail : '"' ∉ tail)
    (specs : List ImportSpec) : QuotesPaths specs (rows (specLines front specs) ++ tail) := by
  intro u w v same clean
  have noQuote : '"' ∉ w := fun listed => (plain_mem_iff.mp (clean _ listed)).1 rfl
  induction specs generalizing u with
  | nil =>
    have listed : '"' ∈ tail := by
      rw [show tail = u ++ '"' :: (w ++ '"' :: v) from same]
      simp
    exact absurd listed noTail
  | cons s specs ih =>
    have ahead : '"' ∉ front ++ s.lead := by
      rw [List.mem_append, not_or]
      exact ⟨noFront, s.not_mem_lead (by decide) (by decide)⟩
    have line : (front ++ s.lead) ++ '"' :: (s.path ++ '"' :: '\n' ::
        (rows (specLines front specs) ++ tail)) = u ++ '"' :: (w ++ '"' :: v) := by
      rw [← same]
      simp [specLines, ImportSpec.chars]
    -- The mark in front is the first one of the line, the second one, or stands on another line.
    rcases cut_char ahead line with ⟨_, line⟩ | ⟨y, _, line⟩
    · exact ⟨s, List.mem_cons_self, (cut_unique noQuote s.not_mem_path.1 line).1⟩
    · rcases cut_char s.not_mem_path.1 line with ⟨_, line⟩ | ⟨z, _, line⟩
      · cases w with
        | nil => simp at line
        | cons c w =>
          obtain ⟨rfl, _⟩ := List.cons.inj line
          exact absurd rfl (plain_mem_iff.mp (clean _ List.mem_cons_self)).2
      · cases z with
        | nil => simp at line
        | cons c z =>
          obtain ⟨t, listed, found⟩ := ih z (List.cons.inj line).2
          exact ⟨t, List.mem_cons_of_mem _ listed, found⟩

theorem quotesPaths_separate (specs : List ImportSpec) {behind : List Char} (noQuote : '"' ∉ behind) :
    QuotesPaths specs (separate specs ++ behind) :=
  quotesPaths_rows (by decide) noQuote specs

theorem quotesPaths_grouped (specs : List ImportSpec) {behind : List Char} (noQuote : '"' ∉ behind) :
    QuotesPaths specs (grouped specs ++ behind) := by
  intro u w v same clean
  have noHead : '"' ∉ blockOpening ++ ['\n'] := by decide
  have shape : (blockOpening ++ ['\n']) ++ (rows (specLines ['\t'] specs) ++ (')' :: behind)) =
      u ++ '"' :: (w ++ '"' :: v) := by
    simpa [grouped, blockBody] using same
  obtain ⟨y, rfl, further⟩ := split_behind noHead shape
  exact quotesPaths_rows (by decide) (by simp [noQuote]) specs _ w v further clean

/-- What stands before the path of a single import, up to the quotation mark. -/
def singleFront : List Regex :=
  letters "import" ++ [several blank, maybe (.seq (several Python.dotted) (several blank))]

theorem importPattern_shape : importPattern.regex =
    seqs (((indent ++ singleFront) ++ [char '"']) ++ group 1 (several plain) :: [char '"']) :=
  importPattern_regex

theorem quotedPattern_shape : quotedPattern.regex =
    seqs (([] ++ [char '"']) ++ group 1 (several plain) :: [char '"']) :=
  quotedPattern_regex

section Paths

variable {specs : List ImportSpec} {text : List Char} (quotes : QuotesPaths specs text)

include quotes

/-- What a form finds between two quotation marks is a path. -/
theorem path_of_reads {front back : List Regex} {w : List Char} {p s e q : Point}
    (inside : p.In text) (first : (seqs (front ++ [char '"'])).Takes p s) (reads : s.Reads w e)
    (clean : ∀ c ∈ w, plain.mem c = true) (last : (seqs (.char '"' :: back)).Takes e q) :
    ∃ s ∈ specs, s.path = w := by
  obtain ⟨u, before⟩ := inside
  obtain ⟨a, ahead, opening⟩ := takes_seqs_append.mp first
  obtain ⟨v, readsFront, _⟩ := ahead.reads
  obtain ⟨b, closing, _⟩ := takes_seqs_cons.mp last
  have whole := (before.trans (readsFront.trans ((show a.Reads ['"'] s from opening).trans
    (reads.trans (show e.Reads ['"'] b from closing))))).rest_eq
  refine quotes (u ++ v) w b.rest ?_ clean
  simpa [Point.start] using whole

/-- What is captured between two quotation marks is a path. -/
theorem path_of_captured {p : Pattern} {front : List Regex} {w : List Char}
    (shape : p.regex = seqs ((front ++ [char '"']) ++ group 1 (several plain) :: [char '"']))
    (steady : (seqs ((front ++ [char '"']) ++ group 1 (several plain) :: [char '"'])).steady = true)
    (captured : w ∈ p.captures text) : ∃ s ∈ specs, s.path = w := by
  obtain ⟨a, s, e, b, inside, first, body, last, rfl⟩ :=
    spans_of_captured shape ⟨steady, rfl, rfl⟩ captured
  obtain ⟨w, _, members, reads⟩ := takes_several body
  rw [reads.charsTo_eq]
  exact path_of_reads quotes inside first reads members last

/-- What stands in a part of a text stands in the text. -/
theorem QuotesPaths.part {u part v : List Char} (whole : text = u ++ (part ++ v)) :
    QuotesPaths specs part := by
  intro a w b same clean
  refine quotes (u ++ a) w (b ++ v) ?_ clean
  simp [whole, same]

theorem path_of_module {rule : ImportRule} (listed : rule ∈ go.importRules) {name : String}
    (found : name ∈ rule.modules text) : ∃ s ∈ specs, s.path = name.toList := by
  obtain ⟨_, captured, member, read⟩ := mem_modules_iff_captures.mp found
  simp only [go, List.mem_cons, List.not_mem_nil, or_false] at listed
  rcases listed with rfl | rfl
  · obtain ⟨s, listed, rfl⟩ := path_of_captured quotes importPattern_shape (by decide) member
    rw [ImportReading.modules, s.trim_path, List.mem_singleton] at read
    exact ⟨s, listed, read.symm⟩
  · -- What the block captures is a part of the text.
    obtain ⟨p, s, e, _, ⟨u, before⟩, first, body, _, rfl⟩ :=
      spans_of_captured importBlockPattern_regex (by decide) member
    obtain ⟨v, readsFront, _⟩ := first.reads
    obtain ⟨w, reads, _⟩ := body.reads
    rw [reads.charsTo_eq] at read
    have whole : text = (u ++ v) ++ (w ++ e.rest) := by
      simpa [Point.start] using (before.trans (readsFront.trans reads)).rest_eq
    exact path_of_captured (QuotesPaths.part quotes whole) quotedPattern_shape (by decide) read

/-- A name that a form finds is the last part of a path. -/
theorem endsWith_of_found {name : List Char} (clean : ∀ c ∈ name, plain.mem c = true)
    (found : FoundIn forms name text) : ∃ s ∈ specs, s.EndsWith name := by
  -- Both forms end alike: a quotation mark, perhaps a directory, the name and the other mark.
  have quoted : ∀ {front : List Regex} {p a b q : Point}, p.In text →
      (seqs ((front ++ [char '"']) ++ [leading plain '/'])).Takes p a → a.Reads name b →
      (seqs [.char '"']).Takes b q → ∃ s ∈ specs, s.EndsWith name := by
    intro front p a b q inside first reads last
    obtain ⟨o, opening, further⟩ := takes_seqs_append.mp first
    obtain ⟨w, readsLead, lead⟩ := reads_leading further
    have members : ∀ c ∈ w ++ name, plain.mem c = true := by
      refine List.forall_mem_append.mpr ⟨?_, clean⟩
      rcases lead with rfl | ⟨dir, rfl, members⟩
      · simp
      · refine List.forall_mem_append.mpr ⟨members, ?_⟩
        simp [plain_mem_iff]
    obtain ⟨s, listed, path⟩ :=
      path_of_reads quotes inside opening (readsLead.trans reads) members last
    refine ⟨s, listed, ?_⟩
    rcases lead with rfl | ⟨dir, rfl, _⟩
    · exact .inl path
    · exact .inr ⟨dir, by simp [path]⟩
  obtain ⟨form, listed, p, a, b, q, inside, first, reads, last⟩ := found
  simp only [forms, List.mem_cons, List.not_mem_nil, or_false] at listed
  rcases listed with rfl | rfl
  · exact @quoted (indent ++ singleFront) p a b q inside first reads last
  · exact @quoted (blockFront ++ [many (.compl (.single ')'))]) p a b q inside first reads last

end Paths

section Search

/-- Where a pattern for a quoted path finds something on the line of each module, it captures the
paths of all modules. -/
theorem path_mem_captures {p : Pattern} {heads : List Regex}
    (shape : p.regex = seqs ((heads ++ [char '"']) ++ group 1 (several plain) :: [char '"']))
    (joins : p.regex.joins = true) {front : List Char} (noQuote : '"' ∉ front)
    (finds : ∀ s : ImportSpec, p.matchesIn (front ++ s.chars ++ ['\n']) = true)
    {specs : List ImportSpec} {s : ImportSpec} (listed : s ∈ specs) (tail : List Char) :
    s.path ∈ p.captures (rows (specLines front specs) ++ tail) := by
  obtain ⟨before, after, rfl⟩ := List.append_of_mem listed
  have steady := (joins_iff.mp joins).1
  rw [shape] at steady
  -- The line of the module is captured apart from the lines before and behind it.
  have split : rows (specLines front (before ++ s :: after)) ++ tail =
      rows (specLines front before) ++ ((front ++ s.chars ++ ['\n']) ++
        (rows (specLines front after) ++ tail)) := by
    simp [specLines]
  rw [split, Pattern.captures_append joins (rows_wholeLines _),
    Pattern.captures_append joins (.inr ⟨_, rfl⟩)]
  refine List.mem_append_right _ (List.mem_append_left _ ?_)
  obtain ⟨w, captured⟩ := exists_captured shape ⟨steady, rfl, rfl⟩ (finds s)
  have quotes : QuotesPaths [s] (front ++ s.chars ++ ['\n']) := by
    have one := @quotesPaths_rows front [] noQuote (by simp) [s]
    simpa [specLines] using one
  obtain ⟨t, only, path⟩ := path_of_captured quotes shape steady captured
  rw [List.mem_singleton.mp only] at path
  rwa [path]

theorem accepts_lead (s : ImportSpec) :
    Accepts [maybe (.seq (several Python.dotted) (several blank))] s.lead := by
  apply Accepts.optional
  rcases s.lead_cases with none | ⟨label, shape, some, members⟩
  · exact .inl none
  · rw [shape]
    exact .inr ((Accepts.run (List.length_pos_iff.mpr some) members).append
      (Accepts.run (by decide) Blanks.space))

theorem accepts_single (s : ImportSpec) : Accepts singleFront (importWord ++ s.lead) := by
  have word : importWord = "import".toList ++ [' '] := by decide
  rw [word, List.append_assoc]
  exact (Accepts.chars _).append ((Accepts.run (by decide) Blanks.space).append (accepts_lead s))

theorem accepts_path (s : ImportSpec) :
    Accepts [char '"', group 1 (several plain), char '"'] ('"' :: (s.path ++ ['"'])) :=
  (Accepts.chars ['"']).append ((Accepts.group (Accepts.run (List.length_pos_iff.mpr s.nonempty)
    s.plain_path)).append (Accepts.chars ['"']))

theorem importPattern_finds (s : ImportSpec) :
    importPattern.matchesIn (importWord ++ s.chars ++ ['\n']) = true := by
  have accepts : Accepts (singleFront ++ [char '"', group 1 (several plain), char '"'])
      (importWord ++ s.chars) := by
    rw [ImportSpec.chars, ← List.append_assoc]
    exact (accepts_single s).append (accepts_path s)
  obtain ⟨q, reads, _⟩ := Point.exists_reads (p := .start (importWord ++ s.chars ++ ['\n'])) rfl
  rw [Pattern.matchesIn, importPattern_shape, matchesIn_iff (by decide)]
  exact ⟨_, q, Point.start_in _, accepts.indented (Point.reads_nil.mpr rfl) (.inl rfl) reads⟩

theorem quotedPattern_finds (s : ImportSpec) :
    quotedPattern.matchesIn (['\t'] ++ s.chars ++ ['\n']) = true := by
  have shape : ['\t'] ++ s.chars ++ ['\n'] =
      ('\t' :: s.lead) ++ (('"' :: (s.path ++ ['"'])) ++ ['\n']) := by
    simp [ImportSpec.chars]
  obtain ⟨p, before, rest⟩ := Point.exists_reads (p := .start (['\t'] ++ s.chars ++ ['\n'])) shape
  obtain ⟨q, reads, _⟩ := Point.exists_reads rest
  rw [Pattern.matchesIn, quotedPattern_shape, matchesIn_iff (by decide)]
  exact ⟨p, q, ⟨_, before⟩, accepts_path s p q reads⟩

theorem quotedPattern_joins : quotedPattern.regex.joins = true := by
  rw [quotedPattern_shape]
  decide

theorem importPattern_joins : importPattern.regex.joins = true := by
  rw [importPattern_shape]
  decide

theorem not_mem_blockBody (specs : List ImportSpec) : ')' ∉ blockBody specs := by
  rw [blockBody, List.mem_cons, not_or]
  refine ⟨by decide, not_mem_rows (by decide) fun line listed => ?_⟩
  obtain ⟨s, _, rfl⟩ := List.mem_map.mp listed
  have noLead := s.not_mem_lead (c := ')') (by decide) (by decide)
  simp [ImportSpec.chars, noLead, s.not_mem_path.2.2]

theorem accepts_opening : Accepts (letters "import" ++ [many blank, char '(']) blockOpening := by
  have word : blockOpening = "import".toList ++ ([' '] ++ ['(']) := by decide
  rw [word]
  exact (Accepts.chars _).append ((Accepts.run (by decide) Blanks.space).append (Accepts.chars ['(']))

/-- The opening of a block can be read in one way only. -/
theorem reads_opening {text rest w : List Char} {s : Point}
    (shape : text = blockOpening ++ rest) (front : (seqs blockFront).Takes (.start text) s)
    (reads : (Point.start text).Reads w s) : w = blockOpening := by
  have split : blockFront = indent ++ (letters "import" ++ ([many blank] ++ [char '('])) := rfl
  rw [split] at front
  obtain ⟨_, pad, a, blanks, padding, further⟩ :=
    (takes_indent_iff (Point.reads_nil.mpr rfl)).mp front
  obtain ⟨b, word, further⟩ := takes_seqs_append.mp further
  obtain ⟨c, gap, bracket⟩ := takes_seqs_append.mp further
  obtain ⟨gap, _, blanks', spacing⟩ := takes_run.mp gap
  have whole : (Point.start text).Reads ((pad ++ ("import".toList ++ gap)) ++ ['(']) s := by
    rw [List.append_assoc, List.append_assoc]
    exact padding.trans ((takes_chars.mp word).trans (spacing.trans bracket))
  -- Either reading ends with the first bracket of the text.
  have noBracket : '(' ∉ pad ++ ("import".toList ++ gap) := by
    have literal : '(' ∉ "import".toList := by decide
    simp only [List.mem_append, not_or]
    exact ⟨Blanks.not_mem blanks (by decide), literal, Blanks.not_mem blanks' (by decide)⟩
  have opening : blockOpening = importWord ++ ['('] := by decide
  have same : importWord ++ '(' :: rest = (pad ++ ("import".toList ++ gap)) ++ '(' :: s.rest := by
    have both := shape.symm.trans whole.rest_eq
    rw [opening] at both
    simpa only [List.append_assoc, List.cons_append, List.nil_append] using both
  rw [reads.chars_unique whole, opening, (cut_unique (by decide) noBracket same).1]

/-- The block captures the lines of its modules. -/
theorem blockBody_mem_captures (specs : List ImportSpec) (behind : List Char) :
    blockBody specs ∈ importBlockPattern.captures (grouped specs ++ behind) := by
  have shape : grouped specs ++ behind = blockOpening ++ (blockBody specs ++ ')' :: behind) := by
    simp [grouped]
  have accepts : Accepts ((letters "import" ++ [many blank, char '(']) ++
      [.group 1 (many (.compl (.single ')'))), .char ')']) (grouped specs) :=
    accepts_opening.append ((Accepts.group (Accepts.without (not_mem_blockBody specs))).append
      (Accepts.chars [')']))
  obtain ⟨q, reads, _⟩ := Point.exists_reads (p := .start (grouped specs ++ behind)) rfl
  have takes : importBlockPattern.regex.Takes (.start (grouped specs ++ behind)) q := by
    rw [importBlockPattern_regex]
    exact accepts.indented (Point.reads_nil.mpr rfl) (.inl rfl) reads
  have fine :
      importBlockPattern.regex.steady = true ∧ importBlockPattern.regex.nullable = false := by
    rw [importBlockPattern_regex]
    decide
  -- The first match begins with the text.
  obtain ⟨m, preferred⟩ := exists_preferred fine.1 takes
  obtain ⟨ms, found, _⟩ := exists_matchesOf_eq_cons fine.1 fine.2 preferred (Point.reads_nil.mpr rfl)
    (by simp)
  have member := List.mem_of_head? preferred
  rw [importBlockPattern_regex] at member
  obtain ⟨a, first, b, second, last, group⟩ := outcomes_group rfl rfl member
  have front : (seqs blockFront).Takes (.start (grouped specs ++ behind)) a.stop :=
    outcomes_takes first
  have body : (many (.compl (.single ')'))).Takes a.stop b.stop :=
    outcomes_takes (m := a.enter 1) second
  have closing : b.stop.Reads [')'] m.stop := outcomes_takes (m := b.leave 1) last
  obtain ⟨w, readsFront, _⟩ := front.reads
  obtain ⟨inner, _, within, readsBody⟩ := takes_run.mp body
  have same : blockBody specs ++ ')' :: behind = inner ++ ')' :: m.stop.rest := by
    have whole := shape.symm.trans (readsFront.trans (readsBody.trans closing)).rest_eq
    rw [reads_opening shape front readsFront] at whole
    simpa using whole
  have noBracket : ')' ∉ inner := fun listed =>
    CharSet.mem_compl_single.mp (within _ listed) rfl
  obtain ⟨rfl, _⟩ := cut_unique (not_mem_blockBody specs) noBracket same
  refine List.mem_filterMap.mpr ⟨m, ?_, ?_⟩
  · rw [Pattern.matchesOf, found]
    exact List.mem_cons_self
  · rw [group, Option.map_some, readsBody.charsTo_eq]

end Search

section Imports

/-- A form that leads up to a quotation mark finds what the path behind the mark ends with. -/
theorem found_of_endsWith {rs : List Regex} {text u w v name : List Char} {s : ImportSpec}
    (form : (indent ++ (rs ++ [char '"', leading plain '/']), [char '"']) ∈ forms)
    (accepts : Accepts rs w) (whole : WholeLines u)
    (shape : text = u ++ (w ++ '"' :: (s.path ++ '"' :: v))) (ends : s.EndsWith name) :
    FoundIn forms name text := by
  -- The directory of the path may be empty, and then nothing leads up to the name.
  obtain ⟨dir, path, lead⟩ : ∃ dir, s.path = dir ++ name ∧ Accepts [leading plain '/'] dir := by
    rcases ends with path | ⟨dir, path⟩
    · exact ⟨[], path, Accepts.optional (.inl rfl)⟩
    · have members : ∀ c ∈ dir, plain.mem c = true := fun c listed =>
        s.plain_path c (by simp [path, listed])
      exact ⟨dir ++ ['/'], by simp [path], Accepts.optional
        (.inr ((Accepts.run (Nat.zero_le _) members).append (Accepts.chars ['/'])))⟩
  have order : text = u ++ ((w ++ ('"' :: dir)) ++ (name ++ (['"'] ++ v))) := by
    simp [shape, path]
  obtain ⟨p, before, rest⟩ := Point.exists_reads (p := .start text) order
  obtain ⟨a, front, rest⟩ := Point.exists_reads rest
  obtain ⟨b, reads, rest⟩ := Point.exists_reads rest
  obtain ⟨q, closing, _⟩ := Point.exists_reads rest
  refine ⟨_, form, p, a, b, q, ⟨u, before⟩, ?_, reads, closing⟩
  exact (accepts.append ((Accepts.chars ['"']).append lead)).indented before whole front

variable {specs : List ImportSpec} {s : ImportSpec} (listed : s ∈ specs)

include listed

theorem module_of_separate (behind : List Char) :
    ∃ rule ∈ go.importRules, String.ofList s.path ∈ rule.modules (separate specs ++ behind) := by
  refine ⟨⟨importPattern, .whole⟩, .head _, mem_modules_iff_captures.mpr ⟨?_, s.path, ?_, ?_⟩⟩
  · simpa using s.nonempty
  · exact path_mem_captures importPattern_shape importPattern_joins (by decide) importPattern_finds
      listed behind
  · simp [ImportReading.modules, s.trim_path]

theorem module_of_grouped (behind : List Char) :
    ∃ rule ∈ go.importRules, String.ofList s.path ∈ rule.modules (grouped specs ++ behind) := by
  refine ⟨⟨importBlockPattern, .quoted quotedPattern⟩, .tail _ (.head _),
    mem_modules_iff_captures.mpr ⟨?_, _, blockBody_mem_captures specs behind, ?_⟩⟩
  · simpa using s.nonempty
  · have path := path_mem_captures quotedPattern_shape quotedPattern_joins (by decide)
      quotedPattern_finds listed []
    rw [String.toList_ofList]
    -- The line of the bracket has nothing behind it, and is captured apart from the others.
    have feed : WholeLines ['\n'] := .inr ⟨[], rfl⟩
    change s.path ∈ quotedPattern.captures (['\n'] ++ rows (specLines ['\t'] specs))
    rw [Pattern.captures_append quotedPattern_joins feed]
    exact List.mem_append_right _ (by simpa using path)

theorem found_of_separate {name : List Char} (ends : s.EndsWith name) (behind : List Char) :
    FoundIn forms name (separate specs ++ behind) := by
  obtain ⟨before, after, rfl⟩ := List.append_of_mem listed
  refine found_of_endsWith (.head _) (accepts_single s)
    (rows_wholeLines (specLines importWord before)) (v := '\n' :: (separate after ++ behind)) ?_ ends
  simp [separate, specLines, ImportSpec.chars]

theorem found_of_grouped {name : List Char} (ends : s.EndsWith name) (behind : List Char) :
    FoundIn forms name (grouped specs ++ behind) := by
  obtain ⟨before, after, rfl⟩ := List.append_of_mem listed
  have split : blockBody (before ++ s :: after) =
      (blockBody before ++ '\t' :: s.lead) ++
        '"' :: (s.path ++ '"' :: '\n' :: rows (specLines ['\t'] after)) := by
    simp [blockBody, specLines, ImportSpec.chars]
  have inside : ')' ∉ blockBody before ++ '\t' :: s.lead := fun closing =>
    not_mem_blockBody (before ++ s :: after) (split ▸ List.mem_append_left _ closing)
  refine found_of_endsWith (.tail _ (.head _)) (accepts_opening.append (Accepts.without inside))
    (.inl rfl) (v := '\n' :: (rows (specLines ['\t'] after) ++ ')' :: behind)) ?_ ends
  simp [grouped, split]

end Imports

/-- The imports of some modules, in ascending order and each once. -/
def importsOf (specs : List ImportSpec) : List Import :=
  (ascending (specs.map fun s => String.ofList s.path)).map fun name => ⟨name, go.classify name⟩

theorem imports_eq_importsOf {specs : List ImportSpec} {text : List Char}
    (quotes : QuotesPaths specs text)
    (found : ∀ s ∈ specs, ∃ rule ∈ go.importRules, String.ofList s.path ∈ rule.modules text) :
    go.imports (String.ofList text) = importsOf specs := by
  rw [imports_eq rfl, String.toList_ofList, importsOf, modulesBy]
  congr 1
  -- Both lists ascend, so it is enough that they have the same members.
  refine eq_of_ascending (ascending_ascends _) (ascending_ascends _) fun name => ?_
  rw [mem_ascending, mem_ascending, List.mem_flatMap, List.mem_map]
  constructor
  · rintro ⟨rule, listed, module⟩
    obtain ⟨s, listed, path⟩ := path_of_module quotes listed module
    exact ⟨s, listed, by rw [path, String.ofList_toList]⟩
  · rintro ⟨s, listed, rfl⟩
    exact found s listed

theorem judges_of_quotes {specs : List ImportSpec} {text : List Char}
    (quotes : QuotesPaths specs text) {name : String} (clean : '"' ∉ name.toList ∧ '\n' ∉ name.toList)
    (found : ∀ s ∈ specs, s.EndsWith name.toList → FoundIn forms name.toList text) :
    go.Judges name (String.ofList text) (∃ s ∈ specs, s.EndsWith name.toList) := by
  apply formed.judges (by decide)
  rw [String.toList_ofList]
  constructor
  · refine endsWith_of_found quotes fun c listed => plain_mem_iff.mpr ⟨?_, ?_⟩
    · exact fun same => clean.1 (same ▸ listed)
    · exact fun same => clean.2 (same ▸ listed)
  · rintro ⟨s, listed, ends⟩
    exact found s listed ends

/-- A block of imports and the same imports on lines of their own import the same modules, whatever
text without quotation marks is behind, and they confirm the same names: those that are a path, or
the last part of one. -/
theorem grouped_imports_eq_separate (specs : List ImportSpec) {behind : List Char}
    (noQuote : '"' ∉ behind) :
    go.imports (String.ofList (grouped specs ++ behind)) =
      go.imports (String.ofList (separate specs ++ behind)) ∧
    go.imports (String.ofList (separate specs ++ behind)) = importsOf specs ∧
    ∀ name : String, '"' ∉ name.toList ∧ '\n' ∉ name.toList →
      go.Judges name (String.ofList (grouped specs ++ behind))
        (∃ s ∈ specs, s.EndsWith name.toList) ∧
      go.Judges name (String.ofList (separate specs ++ behind))
        (∃ s ∈ specs, s.EndsWith name.toList) := by
  have inBlock := quotesPaths_grouped specs noQuote
  have apart := quotesPaths_separate specs noQuote
  have imports := imports_eq_importsOf apart fun s listed => module_of_separate listed behind
  refine ⟨?_, imports, fun name clean => ⟨?_, ?_⟩⟩
  · rw [imports]
    exact imports_eq_importsOf inBlock fun s listed => module_of_grouped listed behind
  · exact judges_of_quotes inBlock clean fun s listed ends => found_of_grouped listed ends behind
  · exact judges_of_quotes apart clean fun s listed ends => found_of_separate listed ends behind

/-- A path whose last part is a directory, under a label. -/
def storeSpec : ImportSpec where
  label? := some ['d', 'b']
  path := ['x', '/', 'y']
  labelled := by
    rintro _ ⟨⟩
    exact ⟨by simp, fun c listed => .inl (List.all_eq_true.mp (by decide) c listed)⟩
  nonempty := by simp
  clean := by simp
  begins := by
    rintro _ ⟨⟩
    rfl
  ends := by
    rintro _ ⟨⟩
    rfl

theorem grouped_imports_eq_separate_label :
    go.imports "import (\n\tdb \"x/y\"\n)\n" = go.imports "import db \"x/y\"\n\n" ∧
    ∃ patterns, go.dependencyPatterns "y" = .ok patterns ∧
      ∃ pattern ∈ patterns, pattern.matchesIn "import (\n\tdb \"x/y\"\n)\n".toList = true := by
  have block : "import (\n\tdb \"x/y\"\n)\n" =
      String.ofList (grouped [storeSpec] ++ ['\n']) := by decide
  have lines : "import db \"x/y\"\n\n" = String.ofList (separate [storeSpec] ++ ['\n']) := by decide
  have noQuote : '"' ∉ ['\n'] := by decide
  obtain ⟨same, _, judges⟩ := grouped_imports_eq_separate [storeSpec] noQuote
  rw [block, lines]
  refine ⟨same, ?_⟩
  obtain ⟨patterns, compiled, found⟩ := (judges "y" (by decide)).1.of_short (by decide)
  exact ⟨patterns, compiled, found.mpr ⟨storeSpec, by simp, .inr ⟨['x'], by decide⟩⟩⟩

end Ripple.Language.Go
