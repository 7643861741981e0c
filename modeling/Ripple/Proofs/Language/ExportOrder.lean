import Ripple.Proofs.Language.ExportLines

/-!
The order and the places of declared symbols. The symbols of a source are what the rules find, rule
by rule and each from left to right, and then what the group forms find. They are put in the order of
lines, and those of one line keep their order. A name that a rule or a block of declarations gives
stands on the line that is told with it: a line number comes from an offset, and the name begins at
that offset and does not go beyond the line.
-/

namespace Ripple

open Point

namespace Text

/-- What stands around one of the pieces; a separator follows it or nothing does. -/
theorem cut_of_splitOn {sep : Char} {cs piece : List Char} (member : piece ∈ splitOn sep cs) :
    ∃ before behind, cs = before ++ (piece ++ behind) ∧ ∀ c ∈ behind.head?, c = sep := by
  obtain ⟨ps, qs, pieces⟩ := List.append_of_mem member
  refine ⟨_, _, eq_of_splitOn pieces, fun c head => ?_⟩
  cases qs with
  | nil => cases head
  | cons q qs =>
    cases head
    rfl

end Text

namespace Line

open Text

/-- What has no carriage return is not lost with the end of a line. -/
theorem infix_stripLineEnd {part body : List Char} (plain : '\r' ∉ part) (inside : part <:+: body) :
    part <:+: stripLineEnd (body ++ ['\n']) := by
  by_cases clear : body.getLast? = some '\r'
  · obtain ⟨content, rfl⟩ := List.getLast?_eq_some_iff.mp clear
    rw [List.append_assoc]
    rw [List.singleton_append, stripLineEnd_return]
    rcases List.infix_concat_iff.mp inside with last | earlier
    · rcases List.suffix_concat_iff.mp last with rfl | ⟨_, rfl, _⟩
      · exact List.nil_infix
      · simp at plain
    · exact earlier
  · rwa [stripLineEnd_feed clear]

/-- A part of a text that goes over no line end is on the line that the line feeds before it tell. -/
theorem exists_of_part {part : List Char} (some : part ≠ []) (single : '\n' ∉ part)
    (plain : '\r' ∉ part) (before behind : List Char) :
    ∃ line : Line, line.Of (before ++ (part ++ behind)) ∧ line.number = before.count '\n' + 1 ∧
      part <:+: line.content := by
  obtain ⟨begun, lines, shape, begins⟩ := eq_append_lastPart '\n' before
  generalize lastPart '\n' before = first at begun shape
  subst shape
  have count : (lines ++ first).count '\n' = lines.count '\n' := by
    simp [List.count_eq_zero.mpr begun]
  by_cases feed : '\n' ∈ behind
  · obtain ⟨last, rest, rfl, ended⟩ := List.eq_append_cons_of_mem feed
    have body : '\n' ∉ first ++ (part ++ last) := by simp [begun, single, ended]
    refine ⟨cut lines (first ++ (part ++ last) ++ ['\n']), ?_, by rw [count]; rfl, ?_⟩
    · simpa using cut_of begins body rest
    · exact infix_stripLineEnd plain ⟨first, last, by simp⟩
  · -- Without a further line feed the rest of the text is the line.
    have body : '\n' ∉ first ++ (part ++ behind) := by simp [begun, single, feed]
    refine ⟨cut lines (first ++ (part ++ behind)), ?_, by rw [count]; rfl, ?_⟩
    · simpa using ((of_last_iff begins (by simp [some]) body).mpr rfl).1
    · rw [cut, stripLineEnd_of_single body]
      exact ⟨first, behind, by simp⟩

end Line

/-- An identifier goes over no line end. -/
theorem IsIdentifier.exists_line {dollar : Bool} {name : List Char}
    (identifier : IsIdentifier dollar name) (before behind : List Char) :
    ∃ line : Line, line.Of (before ++ (name ++ behind)) ∧ line.number = before.count '\n' + 1 ∧
      name <:+: line.content := by
  have absent : ∀ c, isNameChar dollar c = false → c ∉ name := by
    intro c other member
    rw [identifier.chars c member] at other
    contradiction
  refine Line.exists_of_part identifier.nonempty (absent _ ?_) (absent _ ?_) before behind
  · cases dollar <;> decide
  · cases dollar <;> decide

namespace Export

/-- The line that a symbol is reported on has its name. -/
def Stands (text : List Char) (x : Export) : Prop :=
  ∃ line : Line, line.Of text ∧ line.number = x.line ∧ x.name.toList <:+: line.content

theorem stands_of_cut {x : Export} {dollar : Bool} (identifier : IsIdentifier dollar x.name.toList)
    {text before behind : List Char} (cut : text = before ++ (x.name.toList ++ behind))
    (number : x.line = before.count '\n' + 1) : x.Stands text := by
  rw [cut, Stands, number]
  exact identifier.exists_line before behind

/-- Symbols in the order of their lines, as they are found on each of them. -/
structure InOrder (found symbols : List Export) : Prop where
  perm : symbols.Perm found
  ascend : symbols.Pairwise fun a b => a.line ≤ b.line
  level : ∀ line, onLine line symbols = onLine line found

theorem inOrder_iff {found symbols : List Export} :
    InOrder found symbols ↔ symbols = inLineOrder found := by
  constructor
  · intro order
    refine eq_of_onLine order.ascend (inLineOrder_ascends found) fun line => ?_
    rw [order.level, onLine_inLineOrder]
  · rintro rfl
    exact ⟨inLineOrder_perm found, inLineOrder_ascends found, fun line => onLine_inLineOrder line found⟩

/-- Symbols that are already in order may be followed by others before all are put in order. -/
theorem inLineOrder_append (xs ys : List Export) :
    inLineOrder (inLineOrder xs ++ ys) = inLineOrder (xs ++ ys) := by
  refine eq_of_onLine (inLineOrder_ascends _) (inLineOrder_ascends _) fun line => ?_
  rw [onLine_inLineOrder, onLine_inLineOrder, onLine_append, onLine_append, onLine_inLineOrder]

end Export

/-- The characters between two points of a text lead from the first one to the second, unless that
stands before it; then there are none. -/
theorem Point.In.reads_charsTo {text : List Char} {p q : Point} (inside : p.In text)
    (inside' : q.In text) : p.Reads (p.charsTo q) q ∨ p.charsTo q = [] := by
  obtain ⟨u, reads⟩ := inside
  obtain ⟨v, reads'⟩ := inside'
  rcases Nat.le_total (size u) (size v) with fewer | more
  · obtain ⟨w, rfl⟩ := eq_append_of_size_le (reads.rest_eq.symm.trans reads'.rest_eq) fewer
    obtain ⟨o, first, second⟩ := reads_append.mp reads'
    obtain rfl := reads.unique first
    exact .inl (by rwa [second.charsTo_eq])
  · have none : q.offset - p.offset = 0 := by
      rw [reads.offset_eq, reads'.offset_eq]
      omega
    rw [charsTo, none]
    cases p.rest with
    | nil => exact .inr rfl
    | cons => exact .inr rfl

/-- Line numbers do not fall along the text. -/
theorem Point.Reaches.lineOf_le {text : List Char} {p q : Point} (inside : p.In text)
    (reaches : p.Reaches q) :
    (LineIndex.ofText text).lineOf p.offset ≤ (LineIndex.ofText text).lineOf q.offset := by
  obtain ⟨u, reads⟩ := inside
  obtain ⟨v, further⟩ := reaches
  rw [lineOf_offset reads, lineOf_offset (reads.trans further), List.count_append]
  omega

namespace Match

/-- A symbol is on a line of the match. -/
def Covers (text : List Char) (m : Match) (x : Export) : Prop :=
  (LineIndex.ofText text).lineOf m.start.offset ≤ x.line ∧
    x.line ≤ (LineIndex.ofText text).lineOf m.stop.offset

/-- Symbols that are told with the line of a group are on a line of the match, all on the same. -/
theorem Onward.level {text : List Char} {m : Match} (onward : m.Onward (.start text)) {i : Nat}
    {s e : Point} (group : m.group? i = some (s, e)) {xs : List Export}
    (line : ∀ x ∈ xs, x.line = (LineIndex.ofText text).lineOf s.offset) :
    (xs.Pairwise fun a b => a.line ≤ b.line) ∧ ∀ x ∈ xs, m.Covers text x := by
  obtain ⟨⟨above, below⟩, _⟩ := onward.group? group
  constructor
  · refine List.pairwise_of_forall_mem_list fun x first y second => ?_
    rw [line x first, line y second]
  · intro x listed
    rw [Covers, line x listed]
    exact ⟨above.lineOf_le onward.begins, below.lineOf_le (onward.begins.trans above)⟩

end Match

/-- Symbols that are found match by match are in the order of lines if those of each match are. -/
theorem Regex.flatMap_ascends {r : Regex} {text : List Char} {f : Match → List Export}
    (each : ∀ m ∈ r.matchesOf text, ((f m).Pairwise fun a b => a.line ≤ b.line) ∧
      ∀ x ∈ f m, m.Covers text x) :
    ((r.matchesOf text).flatMap f).Pairwise fun a b => a.line ≤ b.line := by
  obtain ⟨follow, onward⟩ := r.matchesOf_onward text
  refine List.pairwise_flatMap.mpr ⟨fun m found => (each m found).1, follow.imp_of_mem ?_⟩
  intro m n here there reaches x found y found'
  -- The line on which the first match ends parts the symbols of the two.
  have inside : m.stop.In text := (onward m here).begins.trans (onward m here).ends
  calc x.line ≤ (LineIndex.ofText text).lineOf m.stop.offset := ((each m here).2 x found).2
    _ ≤ (LineIndex.ofText text).lineOf n.start.offset := reaches.lineOf_le inside
    _ ≤ y.line := ((each n there).2 y found').1

namespace ExportRule

theorem hits_ascend (rule : ExportRule) (text : List Char) :
    (rule.hits text (.ofText text)).Pairwise fun a b => a.line ≤ b.line := by
  have onward := (rule.pattern.regex.matchesOf_onward text).2
  rw [hits, List.filterMap_eq_flatMap_toList]
  refine Regex.flatMap_ascends fun m found => ?_
  cases symbol : rule.symbol? (.ofText text) m with
  | none => exact ⟨.nil, by simp⟩
  | some x =>
    obtain ⟨⟨s, e⟩, group, rfl⟩ := Option.map_eq_some_iff.mp symbol
    obtain ⟨i, _, group⟩ := Option.bind_eq_some_iff.mp group
    exact (onward m found).level group (by simp)

/-- A name that a rule gives is on its line. -/
theorem stands_of_hit {rule : ExportRule} {dollar : Bool} (declares : rule.declares dollar = true)
    {text : List Char} {x : Export} (hit : x ∈ rule.hits text (.ofText text)) :
    IsSymbolName dollar x.name.toList ∧ x.Stands text := by
  obtain ⟨m, s, e, found, group, name, number⟩ := mem_hits hit
  obtain ⟨o, _, preferred⟩ := Regex.mem_matchesOf (Pattern.steady_of_passes declares) found
  obtain ⟨part, opens, takes⟩ := Pattern.exists_part declares preferred group
  obtain ⟨_, reads, isName⟩ := takes.isName opens
  obtain ⟨before, inside⟩ := (Pattern.group?_inside found group).1
  obtain rfl := name.trans reads.charsTo_eq
  have cut : text = before ++ (x.name.toList ++ e.rest) := by
    rw [← reads.rest_eq]
    exact inside.rest_eq
  exact ⟨isName,
    Export.stands_of_cut isName.toIsIdentifier cut (number.trans (lineOf_offset inside))⟩

end ExportRule

namespace ExportGroup

section Block

variable {entry : Pattern} {kind : SymbolKind}

/-- A line of a block declares its symbols, and then the lines below it declare theirs. -/
theorem blockHits_cons (index : LineIndex) (line : List Char) (lines : List (List Char)) (offset : Nat)
    (depth : Int) : blockHits entry kind index (line :: lines) offset depth =
      blockHits entry kind index [line] offset depth ++
        blockHits entry kind index lines (offset + size line)
          (line.foldl (fun level c => level + depthOf c) depth) := by
  rw [blockHits, foldl_size, blockHits, blockHits, List.append_nil]

/-- The names of one line of a block are on one line of the text. -/
theorem blockHits_level (index : LineIndex) (line : List Char) (offset : Nat) (depth : Int) :
    (blockHits entry kind index [line] offset depth).Pairwise fun a b => a.line ≤ b.line := by
  rw [blockHits, blockHits, List.append_nil]
  split
  · split
    · exact List.pairwise_map.mpr (List.pairwise_of_forall fun _ _ => Nat.le_refl _)
    · exact .nil
  · exact .nil

variable {text before after : List Char} {lines : List (List Char)}

/-- A name of a block stands in a list of names, and its line is the one that the list begins on. -/
theorem list_of_blockHit (whole : text = before ++ (lines.flatten ++ after)) {depth : Int} {x : Export}
    (hit : x ∈ blockHits entry kind (.ofText text) lines (size before) depth) :
    ∃ pad list rest, lines.flatten = pad ++ (list ++ rest) ∧
      x.line = (before ++ pad).count '\n' + 1 ∧
      x.name.toList ∈ (Text.splitOn ',' list).map Text.trim ∧
        (entry.groupPasses "names" (· = nameListRegex) = true →
          '\n' ∉ list ∧ IsSymbolName false x.name.toList) := by
  obtain ⟨above, line, below, start, names, rfl, found, listed, number⟩ := mem_blockHits hit
  obtain ⟨pad, list, rest, rfl, rfl, rfl, isNames⟩ := list_of_entry found
  refine ⟨above.flatten ++ pad, list, rest ++ below.flatten, by simp, ?_, listed,
    fun passes => ⟨(isNames passes).1, (isNames passes).2 _ listed⟩⟩
  have shape : text = (before ++ (above.flatten ++ pad)) ++
      (list ++ (rest ++ (below.flatten ++ after))) := by
    rw [whole]
    simp
  rw [number, Nat.add_assoc, ← size_append, ← size_append, shape, lineOf_size]

theorem line_of_blockHit (whole : text = before ++ (lines.flatten ++ after)) {depth : Int} {x : Export}
    (hit : x ∈ blockHits entry kind (.ofText text) lines (size before) depth) :
    before.count '\n' + 1 ≤ x.line ∧ x.line ≤ (before ++ lines.flatten).count '\n' + 1 := by
  obtain ⟨pad, list, rest, shape, number, _⟩ := list_of_blockHit whole hit
  rw [number, shape]
  simp only [List.count_append]
  omega

theorem blockHits_ascend (whole : text = before ++ (lines.flatten ++ after)) (depth : Int) :
    (blockHits entry kind (.ofText text) lines (size before) depth).Pairwise
      fun a b => a.line ≤ b.line := by
  induction lines generalizing before depth with
  | nil => exact .nil
  | cons line lines ih =>
    have first : text = before ++ ([line].flatten ++ (lines.flatten ++ after)) := by simpa using whole
    have second : text = (before ++ line) ++ (lines.flatten ++ after) := by simpa using whole
    rw [blockHits_cons, ← size_append]
    refine List.pairwise_append.mpr ⟨blockHits_level _ line _ depth, ih second _, ?_⟩
    intro x here y later
    have above := (line_of_blockHit first here).2
    have below := (line_of_blockHit second later).1
    rw [List.flatten_singleton] at above
    exact Nat.le_trans above below

/-- A name of a block is on its line. -/
theorem stands_of_blockHit (passes : entry.groupPasses "names" (· = nameListRegex) = true)
    (whole : text = before ++ (lines.flatten ++ after)) {depth : Int} {x : Export}
    (hit : x ∈ blockHits entry kind (.ofText text) lines (size before) depth) :
    IsSymbolName false x.name.toList ∧ x.Stands text := by
  obtain ⟨pad, list, rest, shape, number, listed, isName⟩ := list_of_blockHit whole hit
  obtain ⟨single, isName⟩ := isName passes
  obtain ⟨piece, part, trimmed⟩ := List.mem_map.mp listed
  obtain ⟨u, v, around, _⟩ := Text.cut_of_splitOn part
  obtain ⟨a, b, padded, _⟩ := (Text.trim_isTrimmed piece).blanks
  rw [trimmed] at padded
  rw [around, padded] at shape single
  have cut : text = (before ++ pad ++ (u ++ a)) ++ (x.name.toList ++ (b ++ (v ++ (rest ++ after)))) := by
    rw [whole, shape]
    simp
  refine ⟨isName, Export.stands_of_cut isName.toIsIdentifier cut ?_⟩
  -- What stands before the name in the list has no line feed either.
  have level : (u ++ a).count '\n' = 0 := by
    refine List.count_eq_zero.mpr fun feed => single ?_
    simp only [List.mem_append] at feed ⊢
    tauto
  have sum : (before ++ pad ++ (u ++ a)).count '\n' = (before ++ pad).count '\n' + (u ++ a).count '\n' :=
    List.count_append
  rw [number, sum, level, Nat.add_zero]

end Block

/-- The pattern that finds a form. -/
def pattern : ExportGroup → Pattern
  | nameList pattern _ => pattern
  | block pattern _ => pattern

/-- Whether a form is a block of declarations. -/
def isBlock : ExportGroup → Bool
  | nameList _ _ => false
  | block _ _ => true

/-- The lines of a block, with what stands before and behind them in the text. -/
theorem cut_of_body {pattern : Pattern} {text : List Char} {m : Match}
    (found : m ∈ pattern.matchesOf text) {start stop : Point}
    (body : pattern.group? m "body" = some (start, stop)) :
    ∃ before after, text = before ++ ((Text.linePieces (start.charsTo stop)).flatten ++ after) ∧
      start.offset = size before ∧
      (LineIndex.ofText text).lineOf m.start.offset ≤ before.count '\n' + 1 ∧
      (before ++ (Text.linePieces (start.charsTo stop)).flatten).count '\n' + 1 ≤
        (LineIndex.ofText text).lineOf m.stop.offset := by
  obtain ⟨i, _, group⟩ := Option.bind_eq_some_iff.mp body
  have onward := (pattern.regex.matchesOf_onward text).2 m found
  obtain ⟨⟨above, below⟩, above', below'⟩ := onward.group? group
  obtain ⟨before, reads⟩ := onward.begins.trans above
  obtain ⟨after, behind⟩ := start.exists_rest_eq stop
  rw [(Text.linePieces_cut _).2]
  refine ⟨before, after, ?_, ?_, ?_, ?_⟩
  · rw [← behind]
    exact reads.rest_eq
  · simpa [Point.start] using reads.offset_eq
  · rw [← lineOf_offset reads]
    exact above.lineOf_le onward.begins
  · have first : start.In text := onward.begins.trans above
    have second : stop.In text := onward.begins.trans above'
    -- Nothing here says that a group ends behind its beginning; if it does not, it has no lines.
    rcases first.reads_charsTo second with further | none
    · rw [← lineOf_offset (reads.trans further)]
      exact below'.lineOf_le second
    · rw [none, List.append_nil, ← lineOf_offset reads]
      exact below.lineOf_le first

theorem hits_ascend (group : ExportGroup) (text : List Char) :
    (group.hits text (.ofText text)).Pairwise fun a b => a.line ≤ b.line := by
  have onward := (group.pattern.regex.matchesOf_onward text).2
  cases group with
  | nameList pattern identifier =>
    refine Regex.flatMap_ascends fun m found => ?_
    split
    next => exact ⟨.nil, by simp⟩
    next s e group =>
      obtain ⟨i, _, group⟩ := Option.bind_eq_some_iff.mp group
      -- All names of a list are told with the line on which it begins.
      refine (onward m found).level group fun x listed => ?_
      obtain ⟨piece, _, kept⟩ := List.mem_filterMap.mp listed
      dsimp only at kept
      split at kept
      next => cases kept
      next =>
        cases kept
        rfl
  | block pattern entry =>
    refine Regex.flatMap_ascends fun m found => ?_
    split
    next start stop _ body =>
      obtain ⟨before, after, whole, offset, above, below⟩ := cut_of_body found body
      rw [offset]
      refine ⟨blockHits_ascend whole 0, fun x hit => ?_⟩
      -- What is found in the body lies between its first line and its last.
      have inside := line_of_blockHit whole hit
      exact ⟨Nat.le_trans above inside.1, Nat.le_trans inside.2 below⟩
    next => exact ⟨.nil, by simp⟩

/-- A name that is declared in a block is on its line. -/
theorem stands_of_hit {group : ExportGroup} {dollar : Bool} (named : group.named dollar = true)
    (isBlock : group.isBlock = true) {text : List Char} {x : Export}
    (hit : x ∈ group.hits text (.ofText text)) :
    IsSymbolName dollar x.name.toList ∧ x.Stands text := by
  cases group with
  | nameList => contradiction
  | block pattern entry =>
    obtain ⟨m, found, listed⟩ := List.mem_flatMap.mp hit
    split at listed
    next start stop _ body =>
      obtain ⟨before, after, whole, offset, _⟩ := cut_of_body found body
      rw [offset] at listed
      obtain ⟨isName, stands⟩ := stands_of_blockHit named whole listed
      exact ⟨isName.mono dollar, stands⟩
    next => cases listed

end ExportGroup

namespace Language

/-- The declarations that the rules and the blocks of a language find. -/
def declarations (l : Language) (rules : List ExportRule) (text : List Char) : List Export :=
  rules.flatMap (·.hits text (.ofText text)) ++
    (l.exportGroups.filter (·.isBlock)).flatMap (·.hits text (.ofText text))

theorem Declares.stands {l : Language} {dollar : Bool} (declares : l.Declares dollar)
    {rules : List ExportRule} (given : l.exportRules = some rules) {text : List Char} {x : Export}
    (found : x ∈ l.declarations rules text) :
    IsSymbolName dollar x.name.toList ∧ x.Stands text := by
  rcases List.mem_append.mp found with found | found
  · obtain ⟨rule, listed, hit⟩ := List.mem_flatMap.mp found
    exact ExportRule.stands_of_hit (declares.rules rules given rule listed) hit
  · obtain ⟨group, listed, hit⟩ := List.mem_flatMap.mp found
    obtain ⟨listed, isBlock⟩ := List.mem_filter.mp listed
    exact ExportGroup.stands_of_hit (declares.groups group listed) isBlock hit

/-- How a language lists the symbols of a source, by what its rules and its group forms find. -/
structure ListsInOrder (l : Language) (rules : List ExportRule) (source : String) : Prop where
  /-- The symbols are what is found, rule by rule and then form by form, put in order. -/
  symbols_iff : ∀ symbols, l.exports? source = some symbols ↔ Export.InOrder
    (rules.flatMap (·.hits source.toList (.ofText source.toList)) ++
      l.exportGroups.flatMap (·.hits source.toList (.ofText source.toList))) symbols
  /-- It is the same to put in order what the rules find before the forms come to it. -/
  rules_first : l.exports? source = some (Export.inLineOrder
    (Export.inLineOrder (rules.flatMap (·.hits source.toList (.ofText source.toList))) ++
      l.exportGroups.flatMap (·.hits source.toList (.ofText source.toList))))
  /-- A pattern is matched from left to right. -/
  matches_follow : ∀ pattern ∈ rules.map (·.pattern) ++ l.exportGroups.map (·.pattern),
    (pattern.matchesOf source.toList).Pairwise fun m n => m.stop.Reaches n.start
  /-- So a rule or a form alone finds its symbols from line to line. -/
  hits_ascend : ∀ hits ∈ rules.map (·.hits source.toList (.ofText source.toList)) ++
      l.exportGroups.map (·.hits source.toList (.ofText source.toList)),
    hits.Pairwise fun a b => a.line ≤ b.line

theorem listsInOrder_of_rules {l : Language} {rules : List ExportRule} (given : l.exportRules = some rules)
    (source : String) : l.ListsInOrder rules source where
  symbols_iff symbols := by
    rw [Export.inOrder_iff, exports?, given, Option.map_some, Option.some.injEq, eq_comm]
    rfl
  rules_first := by
    rw [Export.inLineOrder_append, exports?, given, Option.map_some]
    rfl
  matches_follow pattern _ := (pattern.regex.matchesOf_onward source.toList).1
  hits_ascend hits listed := by
    rcases List.mem_append.mp listed with listed | listed
    · obtain ⟨rule, _, rfl⟩ := List.mem_map.mp listed
      exact rule.hits_ascend _
    · obtain ⟨group, _, rfl⟩ := List.mem_map.mp listed
      exact group.hits_ascend _

/-- A language lists the symbols of every source in the order of their lines and otherwise as they
are found. The names that the rules and the blocks of a built-in language find are identifiers, each
on the line that is told with it. -/
theorem symbols_in_order_on_their_lines {l : Language} {rules : List ExportRule}
    (given : l.exportRules = some rules) (source : String) :
    l.ListsInOrder rules source ∧ (l ∈ LanguageTable.builtin.languages →
      ∀ x ∈ l.declarations rules source.toList,
        IsSymbolName l.dollar x.name.toList ∧ x.Stands source.toList) :=
  ⟨listsInOrder_of_rules given source, fun builtin _ found => (builtin_declares builtin).stands given found⟩

/-- A method with a receiver over two lines, above a block of variables. -/
def methodAndBlock : List Char := "func (s\n*T) A()\nvar (\n\tB, c\n)".toList

theorem hits_method :
    (⟨Go.functionPattern, .function, .capitalized⟩ : ExportRule).hits methodAndBlock
      (.ofText methodAndBlock) = [⟨"A", .function, 2, true⟩] := by
  rw [Go.functionPattern, Pattern.ofText_eq rfl]
  decide +kernel

theorem hits_variables :
    (ExportGroup.block Go.declarationBlockPattern Go.entryPattern).hits methodAndBlock
      (.ofText methodAndBlock) = [⟨"B", .var, 4, true⟩, ⟨"c", .var, 4, false⟩] := by
  rw [Go.declarationBlockPattern, Go.entryPattern, Pattern.ofText_eq rfl, Pattern.ofText_eq rfl]
  decide +kernel

theorem symbols_in_order_method :
    ∃ rules, go.exportRules = some rules ∧ go.ListsInOrder rules (String.ofList methodAndBlock) ∧
      ∀ x ∈ [⟨"A", .function, 2, true⟩, ⟨"B", .var, 4, true⟩, ⟨"c", .var, 4, false⟩],
        x ∈ go.declarations rules methodAndBlock ∧ IsSymbolName go.dollar x.name.toList ∧
          x.Stands methodAndBlock := by
  obtain ⟨lists, stands⟩ :=
    symbols_in_order_on_their_lines (l := go) rfl (String.ofList methodAndBlock)
  have builtin : go ∈ LanguageTable.builtin.languages := .tail _ (.tail _ (.head _))
  rw [String.toList_ofList] at stands
  refine ⟨_, rfl, lists, fun x listed => ?_⟩
  refine (and_iff_left_of_imp (stands builtin x)).mpr ?_
  rcases List.mem_cons.mp listed with rfl | block
  · have method := List.mem_singleton_self (⟨"A", .function, 2, true⟩ : Export)
    rw [← hits_method] at method
    exact List.mem_append_left _ (List.mem_flatMap.mpr ⟨_, .head _, method⟩)
  · rw [← hits_variables] at block
    exact List.mem_append_right _ (List.mem_flatMap.mpr ⟨_, List.mem_filter.mpr ⟨.head _, rfl⟩, block⟩)

end Language

end Ripple
