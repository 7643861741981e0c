import Ripple.Proofs.Language.Reading
import Ripple.Proofs.Regex.LineEnds

/-!
Imports of names in braces, in any layout. Whether such an import is seen depends on its last line
alone: the line that holds the module has to begin with `import`, `export` or the closing brace.
-/

namespace Ripple

namespace Language

open Regex Language.Part

/-- White space between the names of a list. -/
def isWhite (c : Char) : Bool := c = ' ' || c = '\t' || c = '\n'

/-- A name of a list, with the white space around it. -/
structure Entry (isName : Char → Bool) where
  before : List Char
  name : List Char
  behind : List Char
  white : (before ++ behind).all isWhite = true
  nonempty : name ≠ []
  named : name.all isName = true

theorem Entry.white_before {isName : Char → Bool} (e : Entry isName) :
    ∀ c ∈ e.before, isWhite c = true :=
  fun c member => List.all_eq_true.mp e.white c (List.mem_append_left _ member)

theorem Entry.white_behind {isName : Char → Bool} (e : Entry isName) :
    ∀ c ∈ e.behind, isWhite c = true :=
  fun c member => List.all_eq_true.mp e.white c (List.mem_append_right _ member)

theorem Entry.members {isName : Char → Bool} (e : Entry isName) : ∀ c ∈ e.name, isName c = true :=
  List.all_eq_true.mp e.named

/-- The text of a list, with commas between the entries. -/
def listing {isName : Char → Bool} (first : Entry isName) : List (Entry isName) → List Char
  | [] => first.before ++ (first.name ++ first.behind)
  | next :: others => first.before ++ (first.name ++ (first.behind ++ ',' :: listing next others))

theorem mem_listing {isName : Char → Bool} {first : Entry isName} {others : List (Entry isName)}
    {c : Char} (member : c ∈ listing first others) :
    isWhite c = true ∨ isName c = true ∨ c = ',' := by
  induction others generalizing first with
  | nil =>
    simp only [listing, List.mem_append] at member
    rcases member with before | name | behind
    · exact .inl (first.white_before c before)
    · exact .inr (.inl (first.members c name))
    · exact .inl (first.white_behind c behind)
  | cons next others ih =>
    simp only [listing, List.mem_append, List.mem_cons] at member
    rcases member with before | name | behind | comma | later
    · exact .inl (first.white_before c before)
    · exact .inr (.inl (first.members c name))
    · exact .inl (first.white_behind c behind)
    · exact .inr (.inr comma)
    · exact ih later

namespace JavaScript

/-- Characters of an identifier. -/
def isIdentifier (c : Char) : Bool := Unicode.isWord c || c = '$'

/-- An import of names in braces, up to its closing brace. -/
def openedImport (first : Entry isIdentifier) (others : List (Entry isIdentifier)) : List Char :=
  "import \x7b".toList ++ listing first others

def namedImport (first : Entry isIdentifier) (others : List (Entry isIdentifier))
    (path : List Char) : String :=
  String.ofList (openedImport first others ++ ("\x7d from '".toList ++ (path ++ "';".toList)))

/-- The words or signs that a line with an import may begin with. -/
def leads : List (List Char) := ["import".toList, "export".toList, ['\x7d']]

/-- The last line of a text begins as one with an import may. -/
def Led (text : List Char) : Prop :=
  ∃ lead ∈ leads, lead <+: (Text.lastPart '\n' text).dropWhile blank.mem

instance (text : List Char) : Decidable (Led text) :=
  inferInstanceAs (Decidable (∃ lead ∈ leads, lead <+: _))

theorem led_of_line {text u pad lead rest : List Char} (whole : text = u ++ (pad ++ (lead ++ rest)))
    (begins : u = [] ∨ ∃ lines, u = lines ++ ['\n']) (blanks : ∀ c ∈ pad, blank.mem c = true)
    (member : lead ∈ leads) (single : '\n' ∉ rest) : Led text := by
  have line : '\n' ∉ pad ++ (lead ++ rest) := by
    have each : ∀ lead ∈ leads, '\n' ∉ lead := by decide
    simp only [List.mem_append, not_or]
    exact ⟨fun listed => absurd (blanks _ listed) (by decide), each lead member, single⟩
  refine ⟨lead, member, ?_⟩
  rw [whole, Text.lastPart_of_line begins line, List.dropWhile_append_of_pos blanks]
  simp only [leads, List.mem_cons, List.not_mem_nil, or_false] at member
  rcases member with rfl | rfl | rfl <;> exact List.prefix_append _ _

def unquoted (c : Char) : Bool := c ≠ '\'' && c ≠ '"'

theorem unquoted_of_plain {c : Char} (member : plain.mem c = true) : unquoted c = true := by
  have other := plain_mem_iff.mp member
  simp [unquoted, other]

/-- The only text between quotes is found in one way. -/
theorem quoted_unique {pre path post x w s : List Char} {c c' : Char}
    (free : ∀ d ∈ pre ++ (path ++ post), unquoted d = true) (inner : ∀ d ∈ w, unquoted d = true)
    (opens : unquoted c = false) (closes : unquoted c' = false)
    (same : pre ++ '\'' :: (path ++ '\'' :: post) = x ++ c :: (w ++ c' :: s)) :
    x = pre ∧ w = path := by
  -- Both sides have as many quotes, so none is left for what stands before the first one.
  have outer : ∀ d ∈ x, unquoted d = true := by
    have quotes := congrArg (List.countP unquoted) same
    have lengths := congrArg List.length same
    have all := List.countP_eq_length.mpr free
    have within := List.countP_eq_length.mpr inner
    have some := List.countP_le_length (p := unquoted) (l := s)
    have most := List.countP_le_length (p := unquoted) (l := x)
    simp only [List.countP_append, List.countP_cons, List.length_append, List.length_cons, opens,
      closes, show unquoted '\'' = false from rfl, Bool.false_eq_true, if_false] at quotes lengths all
    exact List.countP_eq_length.mp (by omega)
  simp only [List.mem_append] at free
  -- So the first quotes of both sides stand at one place, and then the second ones too.
  obtain ⟨rfl, rest⟩ := Text.run_unique outer (fun d member => free d (.inl member))
    (by simpa using opens) (by simp [unquoted]) same.symm
  obtain ⟨_, rest⟩ := List.cons.inj rest
  obtain ⟨rfl, _⟩ := Text.run_unique inner (fun d member => free d (.inr (.inl member)))
    (by simpa using closes) (by simp [unquoted]) rest
  exact ⟨rfl, rfl⟩

section

variable {first : Entry isIdentifier} {others : List (Entry isIdentifier)} {path : List Char}

theorem unquoted_of_mem {c : Char} (member : c ∈ openedImport first others) : unquoted c = true := by
  rcases List.mem_append.mp member with keyword | listed
  · have each : ∀ c ∈ "import \x7b".toList, unquoted c = true := List.all_eq_true.mp (by decide)
    exact each c keyword
  · have kinds := mem_listing listed
    rw [unquoted, Bool.and_eq_true, decide_eq_true_eq, decide_eq_true_eq]
    refine ⟨?_, ?_⟩ <;> rintro rfl <;> exact absurd kinds (by decide)

theorem plain_of_mem {c : Char} (member : c ∈ openedImport first others ++ ['\x7d'])
    (other : c ≠ '\n') : plain.mem c = true := by
  have unquoted : unquoted c = true := by
    rcases List.mem_append.mp member with member | member
    · exact unquoted_of_mem member
    · rw [List.mem_singleton.mp member]
      rfl
  rw [JavaScript.unquoted, Bool.and_eq_true, decide_eq_true_eq, decide_eq_true_eq] at unquoted
  exact plain_mem_iff.mpr ⟨unquoted.1, unquoted.2, other⟩

/-- What stands before the module. -/
theorem toList_namedImport : (namedImport first others path).toList =
    (openedImport first others ++ "\x7d from ".toList) ++ '\'' :: (path ++ '\'' :: [';']) := by
  simp [namedImport]

theorem not_mem_closing (clean : ∀ c ∈ path, plain.mem c = true) :
    '\n' ∉ '\'' :: (path ++ '\'' :: [';']) := by
  have single : '\n' ∉ path := fun member => absurd (clean _ member) (by decide)
  simp [single]

/-- A quoted module that is found in the import is its module, and what is found before the opening
quote ends where the quote stands. -/
theorem module_unique (clean : ∀ c ∈ path, plain.mem c = true) {front back : List Regex}
    {p s e q : Point} {u w : List Char}
    (start : (Point.start (namedImport first others path).toList).Reads u p)
    (opening : (seqs (front ++ [quote])).Takes p s) (reads : s.Reads w e)
    (members : ∀ c ∈ w, plain.mem c = true) (closing : (seqs (quote :: back)).Takes e q) :
    w = path ∧ ∃ v o, (seqs front).Takes p o ∧ p.Reads v o ∧
      u ++ v = openedImport first others ++ "\x7d from ".toList := by
  obtain ⟨o, front, opens⟩ := takes_seqs_append.mp opening
  obtain ⟨c, quoteC, readsC⟩ := takes_quote_iff.mp opens
  obtain ⟨f, closes, _⟩ := takes_seqs_cons.mp closing
  obtain ⟨d, quoteD, readsD⟩ := takes_quote_iff.mp closes
  obtain ⟨v, readsV, _⟩ := front.reads
  have whole := (start.trans (readsV.trans (readsC.trans (reads.trans readsD)))).rest_eq
  have same : (openedImport first others ++ "\x7d from ".toList) ++
      '\'' :: (path ++ '\'' :: [';']) = (u ++ v) ++ c :: (w ++ d :: f.rest) := by
    rw [← toList_namedImport]
    simpa [Point.start] using whole
  have isQuote : ∀ {c : Char}, c = '\'' ∨ c = '"' → unquoted c = false := by
    rintro c (rfl | rfl) <;> rfl
  -- The text has no quotes but the two around the module, so these are the ones that were found.
  have free : ∀ c ∈ (openedImport first others ++ "\x7d from ".toList) ++ (path ++ [';']),
      unquoted c = true := by
    intro c member
    simp only [List.mem_append] at member
    rcases member with (member | member) | member | member
    · exact unquoted_of_mem member
    · have each : ∀ c ∈ "\x7d from ".toList, unquoted c = true := List.all_eq_true.mp (by decide)
      exact each c member
    · exact unquoted_of_plain (clean c member)
    · rw [List.mem_singleton.mp member]
      rfl
  obtain ⟨before, rfl⟩ := quoted_unique free (fun c member => unquoted_of_plain (members c member))
    (isQuote quoteC) (isQuote quoteD) same
  exact ⟨rfl, v, o, front, readsV, before⟩

theorem led_of_indented (clean : ∀ c ∈ path, plain.mem c = true) {heads tails back : List Regex}
    (leading : ∀ {a b : Point}, (seqs heads).Takes a b → ∃ lead ∈ leads, a.Reads lead b)
    (single : (seqs tails).avoids '\n' = true) {p s e q : Point} {w : List Char}
    (inside : p.In (namedImport first others path).toList)
    (opening : (seqs ((indent ++ (heads ++ tails)) ++ [quote])).Takes p s) (reads : s.Reads w e)
    (members : ∀ c ∈ w, plain.mem c = true) (closing : (seqs (quote :: back)).Takes e q) :
    w = path ∧ Led (namedImport first others path).toList := by
  obtain ⟨u, start⟩ := inside
  obtain ⟨named, v, o, front, readsV, same⟩ := module_unique clean start opening reads members closing
  obtain ⟨begins, pad, a, blanks, readsPad, front⟩ := (takes_indent_iff start).mp front
  obtain ⟨b, head, tail⟩ := takes_seqs_append.mp front
  obtain ⟨lead, member, readsLead⟩ := leading head
  obtain ⟨rest, readsRest, flat⟩ := tail.avoids single
  -- Between the beginning of the line and the quote there is no newline, so this line is the last.
  obtain rfl := readsV.chars_unique (readsPad.trans (readsLead.trans readsRest))
  have whole : (namedImport first others path).toList =
      u ++ (pad ++ (lead ++ (rest ++ '\'' :: (path ++ '\'' :: [';'])))) := by
    rw [toList_namedImport, ← same]
    simp
  refine ⟨named, led_of_line whole begins blanks member ?_⟩
  rw [List.mem_append, not_or]
  exact ⟨flat, not_mem_closing clean⟩

/-- The import is found only if its last line begins as one with an import may. -/
theorem led_of_found (clean : ∀ c ∈ path, plain.mem c = true) {front back : List Regex}
    (form : (front, back) ∈ [(fromFront, [quote]), (bareFront, [quote]), (requireFront, requireBack)])
    {p s e q : Point} {w : List Char} (inside : p.In (namedImport first others path).toList)
    (opening : (seqs front).Takes p s) (reads : s.Reads w e)
    (members : ∀ c ∈ w, plain.mem c = true) (closing : (seqs back).Takes e q) :
    w = path ∧ Led (namedImport first others path).toList := by
  simp only [List.mem_cons, List.not_mem_nil, or_false, Prod.mk.injEq] at form
  rcases form with ⟨rfl, rfl⟩ | ⟨rfl, rfl⟩ | ⟨rfl, rfl⟩
  · have shape : fromFront = (indent ++
        ([alts [seqs (letters "import"), seqs (letters "export"), .char '\x7d']] ++
          ([.rep (.set plain) 0 none false, edge] ++ letters "from" ++ [many blank]))) ++ [quote] := rfl
    rw [shape] at opening
    refine led_of_indented clean ?_ (by decide) inside opening reads members closing
    rintro a b (found | found | found)
    · exact ⟨_, by decide, takes_chars.mp found⟩
    · exact ⟨_, by decide, takes_chars.mp found⟩
    · exact ⟨_, by decide, found⟩
  · have shape : bareFront = (indent ++ (letters "import" ++ [many blank])) ++ [quote] := rfl
    rw [shape] at opening
    refine led_of_indented clean ?_ (by decide) inside opening reads members closing
    intro a b found
    exact ⟨_, by decide, takes_chars.mp found⟩
  · obtain ⟨u, start⟩ := inside
    have shape : requireFront = ([edge] ++ letters "require(" ++ [many blank]) ++ [quote] := rfl
    rw [shape] at opening
    obtain ⟨_, v, o, front, readsV, same⟩ := module_unique clean start opening reads members closing
    -- Before the blanks at the quote stands no bracket.
    obtain ⟨b, front, blanks⟩ := takes_seqs_append.mp front
    obtain ⟨a, ⟨_, rfl⟩, call⟩ := takes_seqs_append.mp front
    obtain ⟨gap, _, blank, readsGap⟩ := takes_run.mp blanks
    obtain rfl := readsV.chars_unique ((takes_chars.mp call).trans readsGap)
    have reversed : gap.reverse ++ '(' :: ("require".toList.reverse ++ u.reverse) =
        [' '] ++ 'm' :: ("\x7d fro".toList.reverse ++ (openedImport first others).reverse) := by
      simpa using congrArg List.reverse same
    have split := Text.run_unique (by simpa using blank) (List.all_eq_true.mp (by decide))
      (by rintro c ⟨⟩; decide) (by rintro c ⟨⟩; decide) reversed
    exact absurd (List.cons.inj split.2).1 (by decide)

/-- The line of the closing brace, if it begins as one with an import may. -/
theorem exists_of_led (clean : ∀ c ∈ path, plain.mem c = true)
    (led : Led (namedImport first others path).toList) :
    ∃ u pad lead rest, openedImport first others ++ ['\x7d'] = u ++ (pad ++ (lead ++ rest)) ∧
      (u = [] ∨ ∃ lines, u = lines ++ ['\n']) ∧ (∀ c ∈ pad, blank.mem c = true) ∧ lead ∈ leads ∧
      '\n' ∉ rest := by
  obtain ⟨lead, member, begins⟩ := led
  obtain ⟨single, u, whole, start⟩ := Text.eq_append_lastPart '\n' (openedImport first others)
  generalize Text.lastPart '\n' (openedImport first others) = line at single whole
  have last : Text.lastPart '\n' (namedImport first others path).toList =
      line ++ '\x7d' :: (" from ".toList ++ '\'' :: (path ++ '\'' :: [';'])) := by
    have shape : (namedImport first others path).toList =
        u ++ (line ++ '\x7d' :: (" from ".toList ++ '\'' :: (path ++ '\'' :: [';']))) := by
      rw [toList_namedImport, whole]
      simp
    rw [shape]
    apply Text.lastPart_of_line start
    have closing := not_mem_closing clean
    simp only [List.mem_append, List.mem_cons, not_or] at closing ⊢
    exact ⟨single, by decide, by decide, closing⟩
  -- Neither the blanks at the beginning of the line nor the lead go beyond the brace.
  obtain ⟨pad, line, rfl, blanks, unblank⟩ : ∃ pad line', line = pad ++ line' ∧
      (∀ c ∈ pad, blank.mem c = true) ∧ ∀ c ∈ line'.head?, blank.mem c = false := by
    refine ⟨_, _, List.takeWhile_append_dropWhile.symm,
      List.all_eq_true.mp List.all_takeWhile, ?_⟩
    intro c first
    simpa [Option.mem_def.mp first] using List.head?_dropWhile_not blank.mem line
  obtain ⟨rest, shape⟩ : ∃ rest, line ++ ['\x7d'] = lead ++ rest := by
    have stays : ∀ tail, (line ++ '\x7d' :: tail).dropWhile blank.mem = line ++ '\x7d' :: tail := by
      intro tail
      cases line with
      | nil => rfl
      | cons c line => simp [unblank c rfl]
    rw [last, List.append_assoc, List.dropWhile_append_of_pos blanks, stays] at begins
    obtain ⟨rest, shape⟩ := begins
    rw [← List.singleton_append, ← List.append_assoc] at shape
    rcases List.append_eq_append_iff.mp shape with ⟨a, same, _⟩ | ⟨a, same, _⟩
    · exact ⟨a, same⟩
    · rcases List.eq_nil_or_concat' a with rfl | ⟨b, d, rfl⟩
      · exact ⟨[], by simpa using same.symm⟩
      · have inner : ∀ lead ∈ leads, '\x7d' ∉ lead.dropLast := by decide
        refine absurd ?_ (inner lead member)
        rw [same, ← List.append_assoc, List.dropLast_concat]
        simp
  refine ⟨u, pad, lead, rest, by rw [← shape, whole]; simp, start, blanks, member, ?_⟩
  intro listed
  have inside : '\n' ∈ line ++ ['\x7d'] := shape ▸ List.mem_append_right _ listed
  simp at single inside
  exact single.2 inside

/-- If its last line begins as one with an import may, the import is found there. -/
theorem found_of_led (clean : ∀ c ∈ path, plain.mem c = true)
    (led : Led (namedImport first others path).toList) :
    ∃ p s e q, p.In (namedImport first others path).toList ∧ (seqs fromFront).Takes p s ∧
      s.Reads path e ∧ quote.Takes e q := by
  obtain ⟨u, pad, lead, rest, shape, begins, blanks, member, single⟩ := exists_of_led clean led
  have whole : (namedImport first others path).toList = u ++ (pad ++ (lead ++ ((rest ++ [' ']) ++
      ("from".toList ++ ([' '] ++ '\'' :: (path ++ '\'' :: [';'])))))) := by
    have regroup : (namedImport first others path).toList = (openedImport first others ++ ['\x7d']) ++
        (" from ".toList ++ '\'' :: (path ++ '\'' :: [';'])) := by
      rw [toList_namedImport]
      simp
    rw [regroup, shape]
    simp
  obtain ⟨p, start, restP⟩ := Point.exists_reads (p := .start _) whole
  obtain ⟨a, readsPad, restA⟩ := Point.exists_reads restP
  obtain ⟨b, readsLead, restB⟩ := Point.exists_reads restA
  obtain ⟨c, readsRest, restC⟩ := Point.exists_reads restB
  obtain ⟨d, readsFrom, restD⟩ := Point.exists_reads restC
  obtain ⟨f, readsGap, restF⟩ := Point.exists_reads restD
  obtain ⟨s, opens, restS⟩ := Point.exists_reads (w := ['\'']) restF
  obtain ⟨e, reads, restE⟩ := Point.exists_reads restS
  obtain ⟨q, closes, _⟩ := Point.exists_reads (w := ['\'']) restE
  refine ⟨p, s, e, q, ⟨u, start⟩, ?_, reads, takes_quote_iff.mpr ⟨'\'', .inl rfl, closes⟩⟩
  refine (takes_indent_iff start).mpr ⟨begins, pad, a, blanks, readsPad, ?_⟩
  have leading : (alts [seqs (letters "import"), seqs (letters "export"), .char '\x7d']).Takes a b := by
    simp only [leads, List.mem_cons, List.not_mem_nil, or_false] at member
    rcases member with rfl | rfl | rfl
    · exact .inl (takes_chars.mpr readsLead)
    · exact .inr (.inl (takes_chars.mpr readsLead))
    · exact .inr (.inr readsLead)
  -- What stands between the lead and the keyword can be passed over.
  have between : ∀ c ∈ rest ++ [' '], plain.mem c = true := by
    intro c listed
    rcases List.mem_append.mp listed with listed | listed
    · have inside : c ∈ openedImport first others ++ ['\x7d'] := by
        rw [shape]
        simp [listed]
      exact plain_of_mem inside fun newline => single (newline ▸ listed)
    · rw [List.mem_singleton.mp listed]
      rfl
  have isEdge : edge.Takes c c := by
    apply takes_edge_before (by simp) _ readsRest readsFrom.rest_eq (by decide)
    simp only [List.getLast?_concat, Option.mem_some_iff, forall_eq']
    decide
  have blank : (many blank).Takes d f :=
    takes_run.mpr ⟨_, Nat.zero_le _, List.all_eq_true.mp (by decide), readsGap⟩
  exact ⟨b, leading, c, takes_run.mpr ⟨_, Nat.zero_le _, between, readsRest⟩, c, isEdge,
    takes_seqs_append.mpr ⟨d, takes_chars.mpr readsFrom, f, blank,
      takes_quote_iff.mpr ⟨'\'', .inl rfl, opens⟩⟩⟩

theorem foundIn_namedImport_iff (clean : ∀ c ∈ path, plain.mem c = true) :
    FoundIn forms (Text.lastPart '/' path) (namedImport first others path).toList ↔
      Led (namedImport first others path).toList := by
  obtain ⟨apart, dir, whole, _⟩ := Text.eq_append_lastPart '/' path
  have file : ∀ c ∈ Text.lastPart '/' path, plain.mem c = true ∧ c ≠ '/' := by
    intro c member
    refine ⟨clean c ?_, ?_⟩
    · rw [whole]
      exact List.mem_append_right _ member
    · rintro rfl
      exact apart member
  constructor
  · rintro ⟨form, member, found⟩
    -- All forms have a quoted module; they differ in what stands before and behind it.
    obtain ⟨⟨front, back⟩, known, rfl⟩ : ∃ parts ∈ [(fromFront, [quote]), (bareFront, [quote]),
        (requireFront, requireBack)],
          form = (parts.1 ++ [leading plain '/'], maybe extension :: parts.2) := by
      simpa [forms] using member
    have here : FoundIn [(front ++ [leading plain '/'], maybe extension :: back)]
        (Text.lastPart '/' path) (namedImport first others path).toList :=
      ⟨_, List.mem_singleton_self _, found⟩
    obtain ⟨p, s, e, q, w, inside, opening, reads, closing, members, _⟩ :=
      (foundIn_quoted_iff file).mp here
    exact (led_of_found clean known inside opening reads members closing).2
  · intro led
    obtain ⟨p, s, e, q, inside, opening, reads, closing⟩ := found_of_led clean led
    have named : Names .javaScript path (Text.lastPart '/' path) :=
      names_iff.mpr ⟨[], .inl rfl, (List.append_nil _).symm⟩
    have here : FoundIn [(fromFront ++ [leading plain '/'], maybe extension :: [quote])]
        (Text.lastPart '/' path) (namedImport first others path).toList :=
      (foundIn_quoted_iff file).mpr ⟨p, s, e, q, path, inside, opening, reads, closing, clean, named⟩
    exact foundIn_append_iff.mpr (.inl here)

theorem judges_namedImport (clean : ∀ c ∈ path, plain.mem c = true) :
    javaScript.Judges (String.ofList (Text.lastPart '/' path)) (namedImport first others path)
      (Led (namedImport first others path).toList) := by
  apply formed.judges (by decide)
  rw [String.toList_ofList]
  exact foundIn_namedImport_iff clean

theorem imported_namedImport_iff (clean : ∀ c ∈ path, plain.mem c = true)
    (trimmed : Text.trim path = path) :
    (∃ i ∈ javaScript.imports (namedImport first others path), i.name = String.ofList path) ↔
      path ≠ [] ∧ Led (namedImport first others path).toList := by
  have rules : javaScript.importRules ++ javaScript.localImportRules = [⟨fromPattern, .whole⟩,
      ⟨barePattern, .whole⟩, ⟨requirePattern, .whole⟩, ⟨blockPattern, .extent⟩] := rfl
  rw [exists_import_iff, rules]
  constructor
  · rintro ⟨rule, listed, named⟩
    obtain ⟨nonempty, hit, found, s, e, captured, member⟩ := mem_modules_iff.mp named
    refine ⟨by simpa using nonempty, ?_⟩
    have conclude : ∀ {r : Regex} {front back : List Regex},
        r = seqs (front ++ group 1 (several plain) :: back) →
        (front, back) ∈ [(fromFront, [quote]), (bareFront, [quote]), (requireFront, requireBack)] →
        (seqs (front ++ group 1 (several plain) :: back)).steady = true ∧
          (several plain).hasGroup 1 = false ∧ (seqs back).hasGroup 1 = false →
        hit ∈ r.matchesOf (namedImport first others path).toList →
        Led (namedImport first others path).toList := by
      intro r front back shape known fine found
      obtain ⟨p, q, inside, opening, body, closing⟩ := spans_of_match shape fine found captured
      obtain ⟨w, _, members, reads⟩ := takes_several body
      exact (led_of_found clean known inside opening reads members closing).2
    simp only [List.mem_cons, List.not_mem_nil, or_false] at listed
    rcases listed with rfl | rfl | rfl | rfl
    · exact conclude fromPattern_regex (by simp) (by decide) found
    · exact conclude barePattern_regex (by simp) (by decide) found
    · exact conclude requirePattern_regex (by simp) (by decide) found
    · exact absurd member List.not_mem_nil
  · rintro ⟨nonempty, led⟩
    -- There is a match, and what the first one captures can only be the module.
    have found : fromPattern.regex.matchesIn (namedImport first others path).toList = true := by
      obtain ⟨p, s, e, q, inside, opening, reads, closing⟩ := found_of_led clean led
      rw [fromPattern_regex, matchesIn_iff (by decide)]
      have body : (several plain).Takes s e :=
        takes_run.mpr ⟨path, List.length_pos_iff.mpr nonempty, clean, reads⟩
      exact ⟨p, q, inside, takes_seqs_append.mpr ⟨s, opening, e, body, closing⟩⟩
    obtain ⟨hit, member⟩ := exists_mem_matchesOf found
    obtain ⟨p, s, e, q, captured, inside, opening, body, closing⟩ :=
      exists_spans_of_match fromPattern_regex (by decide) member
    obtain ⟨w, _, members, reads⟩ := takes_several body
    obtain ⟨rfl, _⟩ := led_of_found clean (by simp) inside opening reads members closing
    refine ⟨⟨fromPattern, .whole⟩, List.mem_cons_self, mem_modules_iff.mpr
      ⟨by simpa using nonempty, hit, member, s, e, captured, ?_⟩⟩
    rw [reads.charsTo_eq, ImportReading.modules, trimmed]
    simp

theorem led_of_single (clean : ∀ c ∈ path, plain.mem c = true) (single : '\n' ∉ listing first others) :
    Led (namedImport first others path).toList := by
  have keyword : "import \x7b".toList = "import".toList ++ " \x7b".toList := by decide
  have opened : openedImport first others =
      "import".toList ++ (" \x7b".toList ++ listing first others) :=
    (congrArg (· ++ listing first others) keyword).trans (List.append_assoc ..)
  have whole : (namedImport first others path).toList = [] ++ ([] ++ ("import".toList ++
      (" \x7b".toList ++ (listing first others ++ ("\x7d from ".toList ++
        '\'' :: (path ++ '\'' :: [';'])))))) := by
    simp only [toList_namedImport, opened, List.append_assoc, List.nil_append]
  refine led_of_line whole (.inl rfl) (by simp) (by decide) ?_
  simp only [List.mem_append, not_or]
  exact ⟨by decide, single, by decide, not_mem_closing clean⟩

end

/-- An import of names in braces is seen, both as an import of its module and by the patterns for the
file that the module names, exactly if its last line begins with `import`, `export` or the closing
brace. It always does if the import has one line. -/
theorem named_import_seen_iff (first : Entry isIdentifier) (others : List (Entry isIdentifier))
    {path : List Char} (clean : ∀ c ∈ path, c ≠ '\'' ∧ c ≠ '"' ∧ c ≠ '\n')
    (trimmed : Text.trim path = path) :
    ((∃ i ∈ javaScript.imports (namedImport first others path), i.name = String.ofList path) ↔
        path ≠ [] ∧ Led (namedImport first others path).toList) ∧
      javaScript.Judges (String.ofList (Text.lastPart '/' path)) (namedImport first others path)
        (Led (namedImport first others path).toList) ∧
      ('\n' ∉ listing first others → Led (namedImport first others path).toList) := by
  simp only [← plain_mem_iff] at clean
  exact ⟨imported_namedImport_iff clean trimmed, judges_namedImport clean, led_of_single clean⟩

theorem named_import_seen_iff_closing :
    ∃ first others, namedImport first others "./auth".toList =
        "import \x7b\n  login,\n  logout\n\x7d from './auth';" ∧
      (∃ i ∈ javaScript.imports (namedImport first others "./auth".toList),
        i.name = String.ofList "./auth".toList) ∧
      javaScript.Judges "auth" (namedImport first others "./auth".toList)
        (Led (namedImport first others "./auth".toList).toList) := by
  obtain ⟨first, others, source, led⟩ : ∃ first others, namedImport first others "./auth".toList =
      "import \x7b\n  login,\n  logout\n\x7d from './auth';" ∧
        Led (namedImport first others "./auth".toList).toList := by
    refine ⟨⟨['\n', ' ', ' '], "login".toList, [], by decide, by decide, by decide⟩,
      [⟨['\n', ' ', ' '], "logout".toList, ['\n'], by decide, by decide, by decide⟩], by decide, ?_⟩
    rw [toList_namedImport]
    decide
  have clean : ∀ c ∈ "./auth".toList, c ≠ '\'' ∧ c ≠ '"' ∧ c ≠ '\n' :=
    fun c member => plain_mem_iff.mp (List.all_eq_true.mp (by decide) c member)
  obtain ⟨imported, judges, _⟩ := named_import_seen_iff first others clean (by decide)
  exact ⟨first, others, source, imported.mpr ⟨by decide, led⟩, judges⟩

/-- Where a name stands on the line of the module, the import may not be seen. -/
theorem broken_import_unseen :
    ∃ first others, namedImport first others "./auth".toList =
        "import \x7b login,\n  logout \x7d from './auth';" ∧
      (¬ ∃ i ∈ javaScript.imports (namedImport first others "./auth".toList), i.name = "./auth") ∧
      ∃ patterns, javaScript.dependencyPatterns "auth" = .ok patterns ∧
        ¬ ∃ pattern ∈ patterns,
          pattern.matchesIn (namedImport first others "./auth".toList).toList = true := by
  obtain ⟨first, others, source, unled⟩ : ∃ first others, namedImport first others "./auth".toList =
      "import \x7b login,\n  logout \x7d from './auth';" ∧
        ¬ Led (namedImport first others "./auth".toList).toList := by
    refine ⟨⟨[' '], "login".toList, [], by decide, by decide, by decide⟩,
      [⟨['\n', ' ', ' '], "logout".toList, [' '], by decide, by decide, by decide⟩], by decide, ?_⟩
    rw [toList_namedImport]
    decide
  have clean : ∀ c ∈ "./auth".toList, plain.mem c = true := List.all_eq_true.mp (by decide)
  refine ⟨first, others, source, ?_, ?_⟩
  · rintro ⟨i, member, named⟩
    have seen := (imported_namedImport_iff clean (by decide)).mp
      ⟨i, member, named.trans String.ofList_toList.symm⟩
    exact unled seen.2
  · have file : String.ofList (Text.lastPart '/' "./auth".toList) = "auth" := by decide
    have judges : javaScript.Judges (String.ofList (Text.lastPart '/' "./auth".toList))
        (namedImport first others "./auth".toList) _ := judges_namedImport clean
    rw [file] at judges
    obtain ⟨patterns, compiled, same⟩ := judges.of_short (by decide)
    exact ⟨patterns, compiled, fun found => unled (same.mp found)⟩

end JavaScript

end Language

end Ripple
