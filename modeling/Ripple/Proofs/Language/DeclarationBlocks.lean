import Ripple.Proofs.Language.ExportOrder
import Ripple.Proofs.Language.NameLists

/-!
Blocks of declarations in Go, whatever their lines are. The rules for single declarations find nothing
in a block, and the block is matched once, so it declares what its lines do, one after another. A line
is looked at for names only if as many brackets are closed as are opened on the lines above it.
-/

namespace Ripple

theorem Text.linePieces_line {line : List Char} (single : '\n' ∉ line) (text : List Char) :
    linePieces (line ++ '\n' :: text) = (line ++ ['\n']) :: linePieces text := by
  induction line with
  | nil => rw [List.nil_append, linePieces_cons, if_pos rfl, List.nil_append]
  | cons c line ih =>
    obtain ⟨other, single⟩ := not_or.mp (List.mem_cons.not.mp single)
    rw [List.cons_append, linePieces_cons, if_neg (Ne.symm other), ih single]
    rfl

theorem Text.linePieces_rows {lines : List (List Char)} (single : ∀ line ∈ lines, '\n' ∉ line) :
    linePieces (rows lines) = lines.map (· ++ ['\n']) := by
  induction lines with
  | nil => rfl
  | cons line lines ih =>
    obtain ⟨here, others⟩ := List.forall_mem_cons.mp single
    rw [rows_cons, linePieces_line here, ih others, List.map_cons]

namespace ExportGroup

open Text Point

section Depth

def isOpening (c : Char) : Bool := c = '\x7b' || c = '(' || c = '['

def isClosing (c : Char) : Bool := c = '\x7d' || c = ')' || c = ']'

/-- The number of opening brackets less that of closing ones. -/
def balance (text : List Char) : Int := text.countP isOpening - text.countP isClosing

theorem balance_append (u v : List Char) : balance (u ++ v) = balance u + balance v := by
  simp only [balance, List.countP_append, Int.natCast_add]
  omega

theorem balance_singleton (c : Char) : balance [c] = depthOf c := by
  have depth : depthOf c = if isOpening c then 1 else if isClosing c then -1 else 0 := rfl
  have apart : isOpening c = true → isClosing c = false := by
    intro opens
    simp only [isOpening, Bool.or_eq_true, decide_eq_true_eq] at opens
    rcases opens with (rfl | rfl) | rfl <;> rfl
  rw [depth, balance, List.countP_singleton, List.countP_singleton]
  by_cases opens : isOpening c = true
  · simp [opens, apart opens]
  · by_cases closes : isClosing c = true <;> simp [opens, closes]

theorem foldl_depth (text : List Char) (depth : Int) :
    text.foldl (fun level c => level + depthOf c) depth = depth + balance text := by
  induction text generalizing depth with
  | nil => simp [balance]
  | cons c text ih =>
    have split : balance (c :: text) = balance [c] + balance text := balance_append [c] text
    rw [List.foldl_cons, ih, split, balance_singleton, Int.add_assoc]

theorem foldl_counter (text : List Char) (depth : Int) :
    text.foldl (fun level c => level + Int32.ofInt (depthOf c)) (.ofInt depth) =
      .ofInt (depth + balance text) := by
  rw [← foldl_depth]
  induction text generalizing depth with
  | nil => rfl
  | cons c text ih => rw [List.foldl_cons, List.foldl_cons, ← Int32.ofInt_add, ih]

/-- In a text of fewer than 2147483648 characters a counter of 32 bits has the depth at each place,
since the text up to there is no longer. Beyond that so many brackets may be open that it goes
round. -/
theorem toInt_counter {text : List Char} (short : text.length < 2147483648) :
    (text.foldl (fun level c => level + Int32.ofInt (depthOf c)) 0).toInt = balance text := by
  have counted : text.foldl (fun level c => level + Int32.ofInt (depthOf c)) 0 =
      .ofInt (0 + balance text) := foldl_counter text 0
  have opening := text.countP_le_length (p := isOpening)
  have closing := text.countP_le_length (p := isClosing)
  rw [counted, Int.zero_add]
  apply Int32.toInt_ofInt_of_le <;> rw [balance] <;> omega

end Depth

/-- Lines with a tab before each. -/
def tabbed (lines : List (List Char)) : List (List Char) := lines.map ('\t' :: ·)

/-- The pieces of a text that consists of the lines. -/
def pieces (lines : List (List Char)) : List (List Char) := lines.map (· ++ ['\n'])

theorem flatten_pieces (lines : List (List Char)) : (pieces lines).flatten = rows lines :=
  List.flatMap_def.symm

theorem tabbed_single {lines : List (List Char)} (single : ∀ line ∈ lines, '\n' ∉ line) :
    ∀ line ∈ tabbed lines, '\n' ∉ line := by
  intro line listed
  obtain ⟨content, member, rfl⟩ := List.mem_map.mp listed
  simp [single content member]

theorem balance_piece (line : List Char) : balance (('\t' :: line) ++ ['\n']) = balance line := by
  have split : balance (('\t' :: line) ++ ['\n']) =
      balance ['\t'] + balance line + balance ['\n'] := by
    rw [← balance_append, ← balance_append]
    rfl
  have none : balance ['\t'] = 0 ∧ balance ['\n'] = 0 := by decide
  rw [split, none.1, none.2]
  omega

/-- The symbols that a list of names declares. -/
def NameList.symbols (kind : SymbolKind) (line : Nat) (l : NameList) : List Export :=
  l.names.map fun name =>
    { name := String.ofList name
      kind := kind
      line := line
      isPublic := name.head?.any Unicode.isUppercase }

section Lines

variable {kind : SymbolKind}

/-- A line within brackets declares nothing; it only changes the depth. -/
theorem blockHits_within {entry : Pattern} {index : LineIndex} {depth : Int} (inside : depth ≠ 0)
    (line : List Char) (more : List (List Char)) (offset : Nat) :
    blockHits entry kind index ((('\t' :: line) ++ ['\n']) :: more) offset depth =
      blockHits entry kind index more (offset + size (('\t' :: line) ++ ['\n']))
        (depth + balance line) := by
  rw [blockHits, foldl_size, foldl_depth, balance_piece, if_neg inside, List.nil_append]

/-- A line outside of all brackets declares the names that it begins with. -/
theorem blockHits_entry (l : NameList) {rest : List Char} (ends : EndsList rest)
    (single : '\n' ∉ rest) {u tail text : List Char}
    (whole : text = u ++ ((('\t' :: (l.chars ++ rest)) ++ ['\n']) ++ tail))
    (more : List (List Char)) :
    blockHits Language.Go.entryPattern kind (.ofText text)
        ((('\t' :: (l.chars ++ rest)) ++ ['\n']) :: more) (size u) 0 =
      l.symbols kind (u.count '\n' + 1) ++
        blockHits Language.Go.entryPattern kind (.ofText text) more
          (size (u ++ (('\t' :: (l.chars ++ rest)) ++ ['\n']))) (balance (l.chars ++ rest)) := by
  have line : ('\t' :: (l.chars ++ rest)) ++ ['\n'] = '\t' :: (l.chars ++ (rest ++ ['\n'])) := by
    simp
  have names := entryNames_list l (ends.feed single)
  rw [← line] at names
  -- The names begin behind the tab, which is on the line that begins behind `u`.
  have number : (LineIndex.ofText text).lineOf (size u + 1) = u.count '\n' + 1 := by
    have order : text = (u ++ ['\t']) ++ ((l.chars ++ rest) ++ '\n' :: tail) := by
      simp [whole]
    have tab : size (u ++ ['\t']) = size u + 1 := size_append u ['\t']
    rw [← tab, order, lineOf_size]
    simp
  rw [blockHits, if_pos rfl, names, foldl_size, foldl_depth, balance_piece, Int.zero_add,
    size_append u]
  simp only [number]
  rfl

end Lines

end ExportGroup

namespace Language.Go

open Regex Language.Part Text ExportGroup

/-- The keywords of blocks, with the kinds of the symbols that they declare. -/
def blockKeywords : List (String × SymbolKind) :=
  [("const", .constant), ("var", .var), ("type", .type)]

def heading (keyword : String) : List Char := keyword.toList ++ [' ', '(']

/-- The parts of a pattern that hold where a line begins. -/
def lineFront : List Regex := [.empty, .assert .lineStart]

/-- A text in which all lines but the first begin with a tab or a closing bracket. -/
def Flush (text : List Char) : Prop :=
  ∀ u rest, WholeLines u → u ++ rest = text → u = [] ∨ ∀ c ∈ rest.head?, c = '\t' ∨ c = ')'

theorem flush_of_single {text : List Char} (single : '\n' ∉ text) : Flush text := by
  rintro u rest (none | ⟨lines, rfl⟩) same
  · exact .inl none
  · exact absurd (by simp [← same]) single

/-- Whatever begins a line, and neither with a tab nor with a bracket, begins the text. -/
theorem start_of_takes {text : List Char} (flush : Flush text) {rs : List Regex} {p q : Point}
    (inside : p.In text) (takes : (seqs (lineFront ++ rs)).Takes p q)
    (first : ∀ {a b}, (seqs rs).Takes a b → ∃ c more, a.rest = c :: more ∧ c ≠ '\t' ∧ c ≠ ')') :
    p = .start text ∧ (seqs rs).Takes p q := by
  obtain ⟨u, reads⟩ := inside
  obtain ⟨o, front, further⟩ := takes_seqs_append.mp takes
  obtain ⟨_, rfl, begins, rfl⟩ := front
  obtain ⟨c, more, rest, noTab, noBracket⟩ := first further
  rcases flush u _ ((holds_lineStart_iff reads).mp begins) reads.rest_eq.symm with rfl | other
  · exact ⟨Point.reads_nil.mp reads, further⟩
  · rcases other c (by simp [rest]) with tab | bracket
    · exact absurd tab noTab
    · exact absurd bracket noBracket

/-- The words that declarations begin with. -/
def declarationWords : List String := "func" :: blockKeywords.map (·.1)

theorem begins_word {word : String} (isWord : word ∈ declarationWords) {a b : Point}
    (takes : (seqs (letters word)).Takes a b) :
    ∃ c rest, a.rest = c :: rest ∧ c ≠ '\t' ∧ c ≠ ')' := by
  have heads : declarationWords.all (fun word =>
      word.toList.head?.any fun c => c ≠ '\t' && c ≠ ')') = true := by decide
  obtain ⟨c, head, solid⟩ := (Option.any_eq_true _ _).mp (List.all_eq_true.mp heads word isWord)
  obtain ⟨cs, text⟩ := List.head?_eq_some_iff.mp head
  have rest := (takes_chars.mp takes).rest_eq
  rw [text, List.cons_append] at rest
  exact ⟨c, _, rest, by simpa using solid⟩

/-- Behind blanks there is a bracket or a name, and not both. -/
theorem bracket_ne_name {pad pad' name : List Char} (blanks : Blanks pad) (blanks' : Blanks pad')
    (named : nameForm.Names name) (rest more : List Char) :
    pad ++ '(' :: rest ≠ pad' ++ (name ++ more) := by
  intro same
  have goes : Goes ('(' :: rest) := by
    rintro _ ⟨⟩
    decide
  obtain ⟨_, bracket⟩ := blanks_unique blanks blanks' goes (goes_name named more) same
  have first : '(' ∈ (name ++ more).head? := by
    rw [← bracket]
    rfl
  exact absurd (named.first first) (by decide)

/-- A single declaration with a keyword. -/
def declarer (word : String) (back : List Regex) : List Regex :=
  letters word ++ (several blank :: group 1 (seqs nameRegex) :: back)

theorem typePattern_regex : typePattern.regex = seqs (lineFront ++
    declarer "type" [.set (.unions [.single ' ', .single '\t', .single '['])]) := by
  rw [typePattern, Pattern.ofText_eq rfl]
  rfl

theorem constantPattern_regex :
    constantPattern.regex = seqs (lineFront ++ declarer "const" []) := by
  rw [constantPattern, Pattern.ofText_eq rfl]
  rfl

theorem variablePattern_regex :
    variablePattern.regex = seqs (lineFront ++ declarer "var" []) := by
  rw [variablePattern, Pattern.ofText_eq rfl]
  rfl

def functionTail : List Regex :=
  [several blank, maybe (seqs [.char '(', many (.compl (.single ')')), .char ')', many blank]),
    .group 1 (seqs nameRegex), many blank, .set (.unions [.single '(', .single '['])]

theorem functionPattern_regex : functionPattern.regex =
    seqs (lineFront ++ (letters "func" ++ functionTail)) := by
  rw [functionPattern, Pattern.ofText_eq rfl]
  rfl

section Keyword

variable {keyword : String} {kind : SymbolKind} (listed : (keyword, kind) ∈ blockKeywords)
  {text behind : List Char} (opening : text = keyword.toList ++ behind)

include listed opening

/-- The words differ in their first letters, so a text begins with its keyword alone. -/
theorem word_eq {word : String} (isWord : word ∈ declarationWords) {a : Point}
    (reads : (Point.start text).Reads word.toList a) : word = keyword := by
  have differ : declarationWords.all (fun word => blockKeywords.all fun k => word = k.1 ||
      word.toList.head?.any fun c => k.1.toList.head?.any fun d => c ≠ d) = true := by decide
  by_contra other
  have apart := List.all_eq_true.mp (List.all_eq_true.mp differ word isWord) _ listed
  simp only [other, decide_false, Bool.false_or] at apart
  obtain ⟨c, first, apart⟩ := (Option.any_eq_true _ _).mp apart
  obtain ⟨d, first', apart⟩ := (Option.any_eq_true _ _).mp apart
  obtain ⟨cs, letters⟩ := List.head?_eq_some_iff.mp first
  obtain ⟨cs', letters'⟩ := List.head?_eq_some_iff.mp first'
  have same : word.toList ++ a.rest = keyword.toList ++ behind :=
    reads.rest_eq.symm.trans opening
  rw [letters, letters', List.cons_append, List.cons_append] at same
  simp [(List.cons.inj same).1] at apart

/-- A rule for a declaration with another keyword, or with a name that does not follow, finds
nothing. -/
theorem hits_eq_nil (flush : Flush text) {rule : ExportRule} {word : String} {more : List Regex}
    (isWord : word ∈ declarationWords)
    (shape : rule.pattern.regex = seqs (lineFront ++ (letters word ++ more)))
    (steady : (seqs (lineFront ++ (letters word ++ more))).steady = true)
    (unnamed : word = keyword → ∀ q, ¬ (seqs (letters word ++ more)).Takes (.start text) q)
    (index : LineIndex) : rule.hits text index = [] := by
  have silent : ∀ p q, p.In text → ¬ rule.pattern.regex.Takes p q := by
    intro p q inside takes
    rw [shape] at takes
    obtain ⟨rfl, further⟩ := start_of_takes flush inside takes fun takes => by
      obtain ⟨_, letters, _⟩ := takes_seqs_append.mp takes
      exact begins_word isWord letters
    -- The word stands where the text has its keyword, so it is the keyword.
    obtain ⟨a, letters, _⟩ := takes_seqs_append.mp further
    exact unnamed (word_eq listed opening isWord (takes_chars.mp letters)) q further
  rw [ExportRule.hits, Pattern.matchesOf, matchesOf_eq_nil (shape ▸ steady) silent,
    List.filterMap_nil]

end Keyword

def blockWord : Regex := alts [seqs (letters "const"), seqs (letters "var"), seqs (letters "type")]

/-- Any text, of which as little as possible is taken. -/
def anything : Regex := .rep (.set (.compl .none)) 0 none false

theorem takes_anything {p q : Point} {w : List Char} (reads : p.Reads w q) : anything.Takes p q :=
  takes_run.mpr ⟨w, Nat.zero_le _, fun _ _ => rfl, reads⟩

theorem declarationBlockPattern_regex : declarationBlockPattern.regex =
    seqs (lineFront ++ [group 1 blockWord, many blank, char '(',
      .group 2 anything, .assert .lineStart, .char ')']) := by
  rw [declarationBlockPattern, Pattern.ofText_eq rfl]
  rfl

theorem declarationBlockPattern_groups (m : Match) :
    declarationBlockPattern.group? m "kw" = m.group? 1 ∧
      declarationBlockPattern.group? m "body" = m.group? 2 := by
  have indices : declarationBlockPattern.groupIndex? "kw" = some 1 ∧
      declarationBlockPattern.groupIndex? "body" = some 2 := by
    rw [declarationBlockPattern, Pattern.ofText_eq rfl]
    exact ⟨rfl, rfl⟩
  rw [Pattern.group?, Pattern.group?, indices.1, indices.2]
  exact ⟨rfl, rfl⟩

theorem reads_blockWord {a b : Point} (takes : blockWord.Takes a b) :
    ∃ word ∈ blockKeywords.map (·.1), (seqs (letters word)).Takes a b := by
  rcases takes with word | word | word
  · exact ⟨_, .head _, word⟩
  · exact ⟨_, .tail _ (.head _), word⟩
  · exact ⟨_, .tail _ (.tail _ (.head _)), word⟩

section Keyword

variable {keyword : String} {kind : SymbolKind} (listed : (keyword, kind) ∈ blockKeywords)

include listed

theorem takes_blockWord {a b : Point} (reads : a.Reads keyword.toList b) : blockWord.Takes a b := by
  have word : (seqs (letters keyword)).Takes a b := takes_chars.mpr reads
  simp only [blockKeywords, List.mem_cons, Prod.mk.injEq, List.not_mem_nil, or_false] at listed
  rcases listed with ⟨rfl, _⟩ | ⟨rfl, _⟩ | ⟨rfl, _⟩
  · exact .inl word
  · exact .inr (.inl word)
  · exact .inr (.inr word)

theorem blockKind_eq : blockKind keyword = kind := by
  simp only [blockKeywords, List.mem_cons, Prod.mk.injEq, List.not_mem_nil, or_false] at listed
  rcases listed with ⟨rfl, rfl⟩ | ⟨rfl, rfl⟩ | ⟨rfl, rfl⟩ <;> decide

theorem heading_single : '\n' ∉ heading keyword := by
  simp only [blockKeywords, List.mem_cons, Prod.mk.injEq, List.not_mem_nil, or_false] at listed
  rcases listed with ⟨rfl, _⟩ | ⟨rfl, _⟩ | ⟨rfl, _⟩ <;> decide

variable {text behind : List Char} (opening : text = keyword.toList ++ behind)

include opening

theorem reads_keyword {a : Point} (word : blockWord.Takes (.start text) a) :
    (Point.start text).Reads keyword.toList a := by
  obtain ⟨word, isWord, letters⟩ := reads_blockWord word
  obtain rfl := word_eq listed opening (List.mem_cons_of_mem _ isWord) (takes_chars.mp letters)
  exact takes_chars.mp letters

/-- A match of a block in a text with a keyword begins with the text. -/
theorem start_of_block (flush : Flush text) {p q : Point} (inside : p.In text)
    (takes : declarationBlockPattern.regex.Takes p q) :
    p = .start text ∧ ∃ a b, (Point.start text).Reads keyword.toList a ∧
      (seqs [many blank, .char '(']).Takes a b := by
  rw [declarationBlockPattern_regex] at takes
  obtain ⟨rfl, further⟩ := start_of_takes flush inside takes fun takes => by
    obtain ⟨a, word, _⟩ := takes_seqs_cons.mp takes
    obtain ⟨word, isWord, letters⟩ := reads_blockWord word
    exact begins_word (List.mem_cons_of_mem _ isWord) letters
  obtain ⟨a, word, c, gap, b, bracket, _⟩ := further
  exact ⟨rfl, a, b, reads_keyword listed opening word, c, gap, bracket⟩

end Keyword

/-- A block of declarations, with the lines between the first and the last one. The tabs before these
lines are left out. -/
structure Block where
  keyword : String
  kind : SymbolKind
  lines : List (List Char)
  /-- What follows the closing bracket on the last line. -/
  behind : List Char
  /-- The last line, with a line feed or without one. -/
  last : List Char
  listed : (keyword, kind) ∈ blockKeywords
  single : ∀ line ∈ lines, '\n' ∉ line
  closes : IsLine (')' :: behind) last

namespace Block

def chars (b : Block) : List Char := rows (heading b.keyword :: tabbed b.lines) ++ b.last

theorem exists_last (b : Block) : ∃ more, b.last = ')' :: more := by
  rcases b.closes.2 with last | last
  · exact ⟨b.behind, last⟩
  · exact ⟨b.behind ++ ['\n'], last⟩

theorem opening (b : Block) : b.chars =
    b.keyword.toList ++ ([' '] ++ '(' :: ('\n' :: (rows (tabbed b.lines) ++ b.last))) := by
  simp [chars, heading]

/-- Where a line begins in a block, the block begins, or there is a tab, or the last line begins. -/
theorem cut {b : Block} {u rest : List Char} (whole : WholeLines u) (same : u ++ rest = b.chars) :
    u = [] ∨ (∃ more, rest = '\t' :: more) ∨
      (u = rows (heading b.keyword :: tabbed b.lines) ∧ rest = b.last) ∨ rest = [] := by
  have single : ∀ line ∈ heading b.keyword :: tabbed b.lines, '\n' ∉ line :=
    List.forall_mem_cons.mpr ⟨heading_single b.listed, tabbed_single b.single⟩
  rcases rows_cut single whole same with
    ⟨before, line, after, split, rfl, begins⟩ | ⟨v, ends, rfl, tail⟩
  · cases before with
    | nil => exact .inl rfl
    | cons first before =>
      -- A line other than the first is one with a tab.
      have member : line ∈ tabbed b.lines := by
        rw [(List.cons.inj split).2]
        simp
      obtain ⟨content, _, rfl⟩ := List.mem_map.mp member
      exact .inr (.inl ⟨_, begins⟩)
  · rcases ends with rfl | ⟨w, rfl⟩
    · exact .inr (.inr (.inl ⟨by simp, tail.symm⟩))
    · -- Behind the last line there is nothing.
      rw [List.append_assoc, List.singleton_append] at tail
      rcases b.closes with ⟨plain, last | last⟩
      · rw [last] at tail
        exact absurd (by simp [tail]) plain
      · rw [last] at tail
        rcases cut_char plain tail with ⟨_, none⟩ | ⟨y, _, none⟩
        · exact .inr (.inr (.inr none))
        · simp at none

theorem flush (b : Block) : Flush b.chars := by
  intro u rest whole same
  obtain ⟨more, last⟩ := b.exists_last
  rcases cut whole same with none | ⟨_, rfl⟩ | ⟨_, rfl⟩ | rfl
  · exact .inl none
  · exact .inr (by simp)
  · exact .inr (by simp [last])
  · exact .inr (by simp)

/-- The keyword of a block is followed by a bracket and not by a name. -/
theorem not_declared (b : Block) {back : List Regex} (q : Point) :
    ¬ (seqs (declarer b.keyword back)).Takes (.start b.chars) q := by
  intro takes
  obtain ⟨a, word, further⟩ := takes_seqs_append.mp takes
  obtain ⟨o, gap, further⟩ := takes_seqs_cons.mp further
  obtain ⟨c, name, _⟩ := takes_seqs_cons.mp further
  obtain ⟨pad, _, blanks, reads⟩ := takes_run.mp gap
  obtain ⟨name, named, readsName⟩ := (NameForm.takes_iff (n := nameForm)).mp name
  have behind : a.rest = [' '] ++ '(' :: ('\n' :: (rows (tabbed b.lines) ++ b.last)) :=
    List.append_cancel_left ((takes_chars.mp word).rest_eq.symm.trans b.opening)
  exact bracket_ne_name Blanks.space blanks named _ _
    (behind.symm.trans (reads.trans readsName).rest_eq |>.trans (List.append_assoc _ _ _))

/-- No rule for single declarations finds anything in a block. -/
theorem rules_silent (b : Block) (index : LineIndex) {rules : List ExportRule}
    (given : go.exportRules = some rules) : rules.flatMap (·.hits b.chars index) = [] := by
  obtain rfl := Option.some.inj given
  have function : "func" ≠ b.keyword := by
    intro same
    have listed := b.listed
    simp [← same, blockKeywords] at listed
  have unnamed : ∀ {word back}, word = b.keyword →
      ∀ q, ¬ (seqs (declarer word back)).Takes (.start b.chars) q := by
    rintro _ back rfl
    exact b.not_declared
  refine List.flatMap_eq_nil_iff.mpr (List.forall_mem_cons.mpr ⟨?_, List.forall_mem_cons.mpr ⟨?_,
    List.forall_mem_cons.mpr ⟨?_, List.forall_mem_singleton.mpr ?_⟩⟩⟩)
  · exact hits_eq_nil b.listed b.opening b.flush (by decide) functionPattern_regex (by decide)
      (fun same => absurd same function) index
  · exact hits_eq_nil b.listed b.opening b.flush (by decide) typePattern_regex (by decide) unnamed
      index
  · exact hits_eq_nil b.listed b.opening b.flush (by decide) constantPattern_regex (by decide) unnamed
      index
  · exact hits_eq_nil b.listed b.opening b.flush (by decide) variablePattern_regex (by decide) unnamed
      index

/-- The heading of a block can be read in one way only. -/
theorem reads_heading {b : Block} {a o : Point} (word : (Point.start b.chars).Reads b.keyword.toList a)
    (bracket : (seqs [many blank, .char '(']).Takes a o) :
    (Point.start b.chars).Reads (heading b.keyword) o := by
  obtain ⟨c, gap, last⟩ := takes_seqs_cons.mp bracket
  obtain ⟨pad, _, blanks, reads⟩ := takes_run.mp gap
  have further : a.Reads (pad ++ ['(']) o := reads.trans last
  have behind : a.rest = [' '] ++ '(' :: ('\n' :: (rows (tabbed b.lines) ++ b.last)) :=
    List.append_cancel_left (word.rest_eq.symm.trans b.opening)
  have same : [' '] ++ '(' :: ('\n' :: (rows (tabbed b.lines) ++ b.last)) = pad ++ '(' :: o.rest := by
    rw [← behind, further.rest_eq]
    simp
  obtain ⟨rfl, _⟩ := cut_unique (by decide) (Blanks.not_mem blanks (by decide)) same
  exact word.trans further

/-- The body of a block ends in front of the last line, which alone begins with a bracket. -/
theorem reads_body {b : Block} {s e q : Point}
    (before : (Point.start b.chars).Reads (heading b.keyword) s)
    (body : anything.Takes s e) (closing : (seqs [.assert .lineStart, .char ')']).Takes e q) :
    s.Reads ('\n' :: rows (tabbed b.lines)) e := by
  obtain ⟨w, reads, _⟩ := body.reads
  obtain ⟨o, ⟨begins, same⟩, bracket⟩ := takes_seqs_cons.mp closing
  rw [same] at bracket
  -- No line but the last begins with the bracket, so the lazy run has to go on up to it.
  have whole := before.trans reads
  have rest : e.rest = ')' :: q.rest := (show e.Reads [')'] q from bracket).rest_eq
  rcases cut ((holds_lineStart_iff whole).mp begins) whole.rest_eq.symm with
    none | ⟨_, tab⟩ | ⟨lines, _⟩ | none
  · simp [heading] at none
  · cases rest.symm.trans tab
  · have same : w = '\n' :: rows (tabbed b.lines) := by simpa using lines
    rwa [← same]
  · cases rest.symm.trans none

theorem exists_takes (b : Block) : ∃ q, declarationBlockPattern.regex.Takes (.start b.chars) q := by
  obtain ⟨more, last⟩ := b.exists_last
  obtain ⟨a, word, restA⟩ := Point.exists_reads (p := .start b.chars) b.opening
  obtain ⟨o, gap, restO⟩ := Point.exists_reads restA
  obtain ⟨c, bracket, restC⟩ := Point.exists_reads (w := ['(']) restO
  obtain ⟨d, body, restD⟩ := Point.exists_reads (w := '\n' :: rows (tabbed b.lines)) restC
  obtain ⟨q, closing, _⟩ := Point.exists_reads (w := [')']) (restD.trans last)
  have begins : Assertion.holds .lineStart d = true := by
    refine (holds_lineStart_iff (word.trans (gap.trans (bracket.trans body)))).mpr ?_
    have lines : b.keyword.toList ++ ([' '] ++ (['('] ++ ('\n' :: rows (tabbed b.lines)))) =
        rows (heading b.keyword :: tabbed b.lines) := by
      simp [heading]
    rw [lines]
    exact rows_wholeLines _
  refine ⟨q, ?_⟩
  rw [declarationBlockPattern_regex]
  refine takes_seqs_append.mpr ⟨_, ⟨_, rfl, rfl, rfl⟩, a, takes_blockWord b.listed word, o, ?_, c,
    bracket, d, ?_, d, ⟨begins, rfl⟩, closing⟩
  · exact takes_run.mpr ⟨_, Nat.zero_le _, Blanks.space, gap⟩
  · exact takes_anything body

/-- A block is matched once. The match gives its keyword and its body. -/
theorem matchesOf_eq (b : Block) : ∃ m a s e, declarationBlockPattern.matchesOf b.chars = [m] ∧
    m.group? 1 = some (.start b.chars, a) ∧ (Point.start b.chars).Reads b.keyword.toList a ∧
    m.group? 2 = some (s, e) ∧ (Point.start b.chars).Reads (heading b.keyword) s ∧
    s.Reads ('\n' :: rows (tabbed b.lines)) e := by
  have fine : declarationBlockPattern.regex.steady = true ∧
      declarationBlockPattern.regex.nullable = false := by
    rw [declarationBlockPattern_regex]
    decide
  obtain ⟨q, takes⟩ := b.exists_takes
  obtain ⟨m, preferred⟩ := exists_preferred fine.1 takes
  have found := matchesOf_eq_singleton fine.1 fine.2 preferred (Point.start_in _)
    fun p q inside takes => (start_of_block b.listed b.opening b.flush inside takes).1
  have member := List.mem_of_head? preferred
  rw [declarationBlockPattern_regex] at member
  -- The keyword is read where the block begins, and the body is read behind the heading.
  obtain ⟨a, first, o, word, _, kw⟩ := outcomes_group rfl rfl member
  obtain ⟨_, rfl, _, start⟩ := outcomes_takes first
  obtain ⟨s, front, e, second, last, body⟩ := @outcomes_group 2
    [.empty, .assert .lineStart, .group 1 blockWord, many blank, .char '(']
    [.assert .lineStart, .char ')'] anything rfl rfl _ _ member
  obtain ⟨_, rfl, _, ⟨_, rfl⟩, c, opening, bracket⟩ := outcomes_takes front
  have opened := reads_heading (reads_keyword b.listed b.opening opening) bracket
  have keyed : blockWord.Takes a.stop o.stop := outcomes_takes (m := a.enter 1) word
  rw [start] at kw keyed
  exact ⟨m, o.stop, s.stop, e.stop, found, kw, reads_keyword b.listed b.opening keyed, body, opened,
    reads_body opened (outcomes_takes (m := s.enter 2) second)
      (outcomes_takes (m := e.leave 2) last)⟩

/-- What the lines of a block declare. -/
def hits (b : Block) : List Export :=
  blockHits entryPattern b.kind (.ofText b.chars) (pieces (tabbed b.lines))
    (Point.size (heading b.keyword ++ ['\n'])) 0

theorem hits_eq (b : Block) :
    (ExportGroup.block declarationBlockPattern entryPattern).hits b.chars (.ofText b.chars) =
      b.hits := by
  obtain ⟨m, a, s, e, found, kw, word, body, before, reads⟩ := b.matchesOf_eq
  have groups := declarationBlockPattern_groups m
  have text : (Point.start b.chars).textTo a = b.keyword := by
    rw [Point.textTo, word.charsTo_eq, String.ofList_toList]
  -- The line of the keyword has no entry, so that the entries begin on the second line.
  have pieced : linePieces ('\n' :: rows (tabbed b.lines)) = ['\n'] :: pieces (tabbed b.lines) := by
    rw [linePieces_cons, if_pos rfl, linePieces_rows (tabbed_single b.single), pieces]
  have offset : s.offset = Point.size (heading b.keyword) := by
    rw [before.offset_eq]
    exact Nat.zero_add _
  have level : (0 : Int) + balance ['\n'] = 0 := by decide
  simp only [ExportGroup.hits, found, List.flatMap_singleton, groups.1, groups.2, kw, body, text,
    blockKind_eq b.listed, reads.charsTo_eq, pieced, offset]
  rw [blockHits, if_pos rfl, entryNames_feed, foldl_size, foldl_depth, level, List.nil_append, hits,
    Point.size_append]

theorem whole (b : Block) : b.chars =
    (heading b.keyword ++ ['\n']) ++ ((pieces (tabbed b.lines)).flatten ++ b.last) := by
  rw [flatten_pieces]
  simp [chars]

/-- A block declares what its lines do. They are read from the first to the last, so the order by
lines changes nothing. -/
theorem exports?_eq (b : Block) : go.exports? (String.ofList b.chars) = some b.hits := by
  have sorted : Export.inLineOrder b.hits = b.hits :=
    List.mergeSort_of_pairwise ((blockHits_ascend b.whole 0).imp fun le => decide_eq_true le)
  have groups : go.exportGroups = [.block declarationBlockPattern entryPattern] := rfl
  cases given : go.exportRules with
  | none => cases given
  | some rules =>
    rw [exports?, given, Option.map_some, exportHits, String.toList_ofList, b.rules_silent _ given,
      groups, List.flatMap_singleton, b.hits_eq, List.nil_append, sorted]

theorem count_heading (b : Block) : (heading b.keyword ++ ['\n']).count '\n' = 1 := by
  rw [List.count_append, List.count_eq_zero.mpr (heading_single b.listed)]
  rfl

end Block

end Language.Go

end Ripple
