import Ripple.Proofs.Language.Reading
import Ripple.Proofs.Language.Settling
import Ripple.Proofs.Words

/-!
The declared names of the built-in languages are identifiers: they are made of the characters of
words and, in JavaScript only, of dollar signs, and they do not begin with a digit. This is read off
the parts of the patterns that give the names; where a pattern gives a list of names, it is read off
the pieces between its commas.
-/

namespace Ripple

/-- The characters of identifiers: those of words, and the dollar sign where it counts as one. -/
def isNameChar (dollar : Bool) (c : Char) : Bool := Unicode.isWord c || dollar && c = '$'

/-- A name, made of characters of identifiers. -/
structure IsIdentifier (dollar : Bool) (name : List Char) : Prop where
  nonempty : name ≠ []
  chars : ∀ c ∈ name, isNameChar dollar c = true

/-- An identifier without dollar signs is one wherever they are allowed. -/
theorem IsIdentifier.mono {name : List Char} (identifier : IsIdentifier false name) (dollar : Bool) :
    IsIdentifier dollar name where
  nonempty := identifier.nonempty
  chars c member := by
    have word := identifier.chars c member
    rw [isNameChar, Bool.false_and, Bool.or_false] at word
    rw [isNameChar, word, Bool.true_or]

/-- The ranges of characters that declared names begin with. -/
def nameStarts (dollar : Bool) : List (Char × Char) :=
  [('A', 'Z'), ('_', '_'), ('a', 'z')] ++ if dollar then [('$', '$')] else []

/-- An identifier that begins with a letter, an underscore or, where it counts, a dollar sign. -/
structure IsSymbolName (dollar : Bool) (name : List Char) : Prop
    extends IsIdentifier dollar name where
  first : ∀ c ∈ name.head?, ∃ r ∈ nameStarts dollar, r.1 ≤ c ∧ c ≤ r.2

theorem IsSymbolName.mono {name : List Char} (isName : IsSymbolName false name) (dollar : Bool) :
    IsSymbolName dollar name where
  toIsIdentifier := isName.toIsIdentifier.mono dollar
  first c head := by
    obtain ⟨r, listed, inside⟩ := isName.first c head
    exact ⟨r, List.mem_append_left _ (by simpa [nameStarts] using listed), inside⟩

namespace CharSet

/-- The ranges of word characters within ASCII. -/
def wordRanges : List (Char × Char) := [('0', '9'), ('A', 'Z'), ('_', '_'), ('a', 'z')]

theorem ascii_word_ranges : ∀ n < 128, wordRanges.all (fun r =>
    !(r.1.toNat ≤ n && n ≤ r.2.toNat) || Unicode.isWord (Char.ofNat n)) = true := by
  decide +kernel

theorem isWord_of_wordRanges {r : Char × Char} (listed : r ∈ wordRanges) {c : Char} (low : r.1 ≤ c)
    (high : c ≤ r.2) : Unicode.isWord c = true := by
  have small : wordRanges.all (fun r => r.2.toNat < 128) = true := by decide
  have limit : r.2.toNat < 128 := of_decide_eq_true (List.all_eq_true.mp small r listed)
  have inside : r.1.toNat ≤ c.toNat ∧ c.toNat ≤ r.2.toNat := ⟨low, high⟩
  have word := List.all_eq_true.mp (ascii_word_ranges c.toNat (by omega)) r listed
  simpa [inside, Char.ofNat_toNat] using word

/-- Whether all members are characters of identifiers, as far as the expression shows it. -/
def names (dollar : Bool) : CharSet → Bool
  | none | word => true
  | range lo hi =>
    dollar && lo = '$' && hi = '$' || wordRanges.any fun r => r.1 ≤ lo && hi ≤ r.2
  | union s t => s.names dollar && t.names dollar
  | _ => false

theorem isNameChar_of_names {dollar : Bool} {s : CharSet} (named : s.names dollar = true) {c : Char}
    (member : s.mem c = true) : isNameChar dollar c = true := by
  fun_induction names dollar s with
  | case1 => simp [mem] at member
  | case2 =>
    rw [mem] at member
    simp [isNameChar, member]
  | case3 lo hi =>
    rw [mem, Bool.and_eq_true, decide_eq_true_eq, decide_eq_true_eq] at member
    rw [Bool.or_eq_true] at named
    -- A range is the dollar sign alone, or it lies within the word characters.
    rcases named with single | word
    · simp only [Bool.and_eq_true, decide_eq_true_eq] at single
      obtain ⟨⟨dollar, rfl⟩, rfl⟩ := single
      obtain rfl := Char.le_antisymm member.2 member.1
      simp [isNameChar, dollar]
    · obtain ⟨r, listed, inside⟩ := List.any_eq_true.mp word
      rw [Bool.and_eq_true, decide_eq_true_eq, decide_eq_true_eq] at inside
      simp [isNameChar, isWord_of_wordRanges listed (Char.le_trans inside.1 member.1)
        (Char.le_trans member.2 inside.2)]
  | case4 s t ihs iht =>
    rw [mem, Bool.or_eq_true] at member
    rw [Bool.and_eq_true] at named
    rcases member with member | member
    · exact ihs named.1 member
    · exact iht named.2 member
  | case5 => simp at named

/-- Whether all members are in the given ranges, as far as the expression shows it. -/
def within (ranges : List (Char × Char)) : CharSet → Bool
  | none => true
  | range lo hi => ranges.any fun r => r.1 ≤ lo && hi ≤ r.2
  | union s t => s.within ranges && t.within ranges
  | _ => false

theorem exists_range_of_within {ranges : List (Char × Char)} {s : CharSet}
    (limited : s.within ranges = true) {c : Char} (member : s.mem c = true) :
    ∃ r ∈ ranges, r.1 ≤ c ∧ c ≤ r.2 := by
  fun_induction within ranges s with
  | case1 => simp [mem] at member
  | case2 lo hi =>
    rw [mem, Bool.and_eq_true, decide_eq_true_eq, decide_eq_true_eq] at member
    obtain ⟨r, listed, inside⟩ := List.any_eq_true.mp limited
    rw [Bool.and_eq_true, decide_eq_true_eq, decide_eq_true_eq] at inside
    exact ⟨r, listed, Char.le_trans inside.1 member.1, Char.le_trans member.2 inside.2⟩
  | case3 s t ihs iht =>
    rw [mem, Bool.or_eq_true] at member
    rw [Bool.and_eq_true] at limited
    rcases member with member | member
    · exact ihs limited.1 member
    · exact iht limited.2 member
  | case4 => simp at limited

end CharSet

namespace Regex

/-- Whether only characters of identifiers are read. -/
def names (dollar : Bool) : Regex → Bool
  | empty | assert _ => true
  | char c => isNameChar dollar c
  | set s => s.names dollar
  | seq r s | alt r s => r.names dollar && s.names dollar
  | group _ r | rep r _ _ _ => r.names dollar

theorem readsOnly_of_names {dollar : Bool} {r : Regex} (named : r.names dollar = true) :
    r.ReadsOnly (isNameChar dollar · = true) := by
  induction r with
  | empty | assert => trivial
  | char c => exact named
  | set s => exact fun _ member => CharSet.isNameChar_of_names named member
  | seq r s ihr ihs | alt r s ihr ihs =>
    rw [names, Bool.and_eq_true] at named
    exact ⟨ihr named.1, ihs named.2⟩
  | group _ r ih | rep r _ _ _ ih => exact ih named

/-- What is read by an expression for identifiers is one. -/
theorem Takes.identifier {dollar : Bool} {r : Regex} (named : r.names dollar = true)
    (consumes : r.nullable = false) {p q : Point} (takes : r.Takes p q) :
    ∃ name, p.Reads name q ∧ IsIdentifier dollar name := by
  obtain ⟨w, reads, chars⟩ := takes.readsOnly (readsOnly_of_names named)
  obtain ⟨v, reads', some⟩ := takes.reads
  obtain rfl := reads.chars_unique reads'
  exact ⟨w, reads, some consumes, chars⟩

/-- Whether an expression reads a character that names begin with and then further ones of names. -/
def opensName (dollar : Bool) : Regex → Bool
  | seq (set s) r => s.within (nameStarts dollar) && (s.names dollar && r.names dollar)
  | _ => false

theorem names_of_opensName {dollar : Bool} {r : Regex} (opens : r.opensName dollar = true) :
    r.nullable = false ∧ r.names dollar = true := by
  fun_cases opensName dollar r with
  | case1 s r => exact ⟨rfl, (Bool.and_eq_true_iff.mp opens).2⟩
  | case2 => simp [opensName] at opens

theorem Takes.isName {dollar : Bool} {r : Regex} (opens : r.opensName dollar = true) {p q : Point}
    (takes : r.Takes p q) : ∃ name, p.Reads name q ∧ IsSymbolName dollar name := by
  obtain ⟨consumes, named⟩ := names_of_opensName opens
  obtain ⟨name, reads, identifier⟩ := takes.identifier named consumes
  refine ⟨name, reads, identifier, ?_⟩
  fun_cases opensName dollar r with
  | case1 s r =>
    obtain ⟨o, ⟨c, member, first⟩, further⟩ := takes
    obtain ⟨w, rest, _⟩ := further.reads
    obtain rfl := reads.chars_unique (first.trans rest)
    rintro _ ⟨⟩
    exact CharSet.exists_range_of_within (Bool.and_eq_true_iff.mp opens).1 member
  | case2 => simp [opensName] at opens

end Regex

open Regex Point

/-- Whether the group of a pattern holds what the test asks of its parts. -/
def Pattern.groupPasses (pattern : Pattern) (name : String) (test : Regex → Bool) : Bool :=
  pattern.regex.steady && match pattern.groupIndex? name with
  | none => true
  | some i => (pattern.regex.bodies i).all fun part => !part.hasGroup i && test part

theorem Pattern.exists_part {pattern : Pattern} {name : String} {test : Regex → Bool}
    (passes : pattern.groupPasses name test = true) {o s e : Point} {m : Match}
    (found : pattern.regex.preferred? o = some m) (group : pattern.group? m name = some (s, e)) :
    ∃ part : Regex, test part = true ∧ part.Takes s e := by
  obtain ⟨i, index, group⟩ := Option.bind_eq_some_iff.mp group
  rw [groupPasses, index, Bool.and_eq_true] at passes
  have parts : ∀ part ∈ pattern.regex.bodies i, part.hasGroup i = false ∧ test part = true := by
    simpa using passes.2
  obtain ⟨part, listed, takes⟩ :=
    preferred?_extent (fun part listed => (parts part listed).1) found group
  exact ⟨part, (parts part listed).2, takes⟩

theorem Pattern.steady_of_passes {pattern : Pattern} {name : String} {test : Regex → Bool}
    (passes : pattern.groupPasses name test = true) : pattern.regex.steady = true :=
  (Bool.and_eq_true_iff.mp passes).1

theorem Pattern.groupPasses_mono {pattern : Pattern} {name : String} {test weaker : Regex → Bool}
    (implies : ∀ part, test part = true → weaker part = true)
    (passes : pattern.groupPasses name test = true) : pattern.groupPasses name weaker = true := by
  rw [groupPasses, Bool.and_eq_true] at passes ⊢
  refine ⟨passes.1, ?_⟩
  split at passes
  next => rfl
  next i _ =>
    refine List.all_eq_true.mpr fun part listed => ?_
    have both := Bool.and_eq_true_iff.mp (List.all_eq_true.mp passes.2 part listed)
    rw [both.1, implies part both.2, Bool.and_true]

/-- A declaration has the name and the line of the group of a match. -/
theorem ExportRule.mem_hits {rule : ExportRule} {text : List Char} {index : LineIndex} {x : Export}
    (hit : x ∈ rule.hits text index) :
    ∃ m s e, m ∈ rule.pattern.matchesOf text ∧ rule.pattern.group? m "name" = some (s, e) ∧
      x.name.toList = s.charsTo e ∧ x.line = index.lineOf s.offset := by
  obtain ⟨m, found, symbol⟩ := List.mem_filterMap.mp hit
  obtain ⟨⟨s, e⟩, group, rfl⟩ := Option.map_eq_some_iff.mp symbol
  exact ⟨m, s, e, found, group, String.toList_ofList, rfl⟩

/-- Whether a rule gives identifiers. -/
def ExportRule.named (rule : ExportRule) (dollar : Bool) : Bool :=
  rule.pattern.groupPasses "name" fun part => !part.nullable && part.names dollar

theorem ExportRule.identifier_of_hit {rule : ExportRule} {dollar : Bool}
    (named : rule.named dollar = true) {text : List Char} {index : LineIndex} {x : Export}
    (hit : x ∈ rule.hits text index) : IsIdentifier dollar x.name.toList := by
  obtain ⟨m, s, e, found, group, name, _⟩ := mem_hits hit
  obtain ⟨o, _, preferred⟩ := mem_matchesOf (Pattern.steady_of_passes named) found
  obtain ⟨part, passes, takes⟩ := Pattern.exists_part named preferred group
  rw [Bool.and_eq_true, Bool.not_eq_true'] at passes
  obtain ⟨_, reads, identifier⟩ := takes.identifier passes.2 passes.1
  rwa [name, reads.charsTo_eq]

/-- Whether a rule gives identifiers that begin as names do. -/
def ExportRule.declares (rule : ExportRule) (dollar : Bool) : Bool :=
  rule.pattern.groupPasses "name" (·.opensName dollar)

theorem ExportRule.named_of_declares {rule : ExportRule} {dollar : Bool}
    (declares : rule.declares dollar = true) : rule.named dollar = true := by
  refine Pattern.groupPasses_mono (fun part opens => ?_) declares
  obtain ⟨consumes, named⟩ := names_of_opensName opens
  simp [consumes, named]

namespace ExportGroup

open Language.Part

/-- A letter or an underscore. -/
def letter : CharSet := .unions [.range 'A' 'Z', .range 'a' 'z', .single '_']

def nameRegex : List Regex := [.set letter, many .word]

/-- Names between commas and blanks. -/
def nameListRegex : Regex :=
  seqs (nameRegex ++ [loop (seqs ([many blank, .char ',', many blank] ++ nameRegex))])

/-- Whether a form gives identifiers. -/
def named (dollar : Bool) : ExportGroup → Bool
  | nameList _ identifier =>
    identifier.regex.steady && identifier.regex.opensText && identifier.regex.closesText &&
      (!identifier.regex.nullable && identifier.regex.names dollar)
  | block _ entry => entry.groupPasses "names" (· = nameListRegex)

theorem isName_of_takes {p q : Point} (takes : (seqs nameRegex).Takes p q) :
    ∃ name, p.Reads name q ∧ IsSymbolName false name :=
  takes.isName (by decide)

/-- The blanks around a name are trimmed off. -/
theorem trim_name {pad name pad' : List Char} (blanks : ∀ c ∈ pad, blank.mem c = true)
    (blanks' : ∀ c ∈ pad', blank.mem c = true) (identifier : IsIdentifier false name) :
    Text.trim (pad ++ (name ++ pad')) = name := by
  refine Text.trim_padded (fun c member => (Language.blank_mem (blanks c member)).1)
    (fun c member => (Language.blank_mem (blanks' c member)).1) identifier.nonempty fun c member => ?_
  have word := identifier.chars c member
  rw [isNameChar, Bool.false_and, Bool.or_false] at word
  exact Unicode.isSpace_eq_false_of_isWord word

theorem ne_comma_of_padded {pad name pad' : List Char} (blanks : ∀ c ∈ pad, blank.mem c = true)
    (blanks' : ∀ c ∈ pad', blank.mem c = true) (identifier : IsIdentifier false name) :
    ∀ c ∈ pad ++ (name ++ pad'), decide (c = ',') = false := by
  intro c member
  rw [decide_eq_false_iff_not]
  simp only [List.mem_append] at member
  rcases member with member | member | member
  · exact (Language.blank_mem (blanks c member)).2
  · rintro rfl
    exact absurd (identifier.chars _ member) (by decide)
  · exact (Language.blank_mem (blanks' c member)).2

/-- The pieces of a list of names are the names with blanks around them. The rounds of the list are
read behind a name that has been read already. -/
theorem pieces_of_rounds {n : Nat} {p q : Point}
    (rounds : Rounds.Iterated (seqs ([many blank, .char ',', many blank] ++ nameRegex)).Takes n p q)
    {pad name : List Char} (blanks : ∀ c ∈ pad, blank.mem c = true)
    (isName : IsSymbolName false name) :
    ∃ w, p.Reads w q ∧
      ∀ piece ∈ Text.splitOn ',' (pad ++ (name ++ w)), IsSymbolName false (Text.trim piece) := by
  have none : ∀ c ∈ ([] : List Char), blank.mem c = true := by simp
  induction n generalizing p pad name with
  | zero =>
    cases rounds
    refine ⟨[], rfl, ?_⟩
    rw [Text.splitOn, Text.splitBy_of_fail (ne_comma_of_padded blanks none isName.toIsIdentifier),
      List.forall_mem_singleton, trim_name blanks none isName.toIsIdentifier]
    exact isName
  | succ n ih =>
    obtain ⟨o, round, rounds⟩ := rounds
    obtain ⟨a, separator, next⟩ := takes_seqs_append.mp round
    obtain ⟨b, before, separator⟩ := takes_seqs_cons.mp separator
    obtain ⟨c, comma, behind⟩ := takes_seqs_cons.mp separator
    obtain ⟨u, _, blanksU, readsU⟩ := takes_run.mp before
    obtain ⟨v, _, blanksV, readsV⟩ := takes_run.mp behind
    obtain ⟨name', readsName, isName'⟩ := isName_of_takes next
    -- The blanks in front of the next name belong to its piece.
    obtain ⟨w, reads, pieces⟩ := ih rounds blanksV isName'
    refine ⟨u ++ ',' :: (v ++ (name' ++ w)),
      readsU.trans (comma.trans (readsV.trans (readsName.trans reads))), ?_⟩
    have cut : Text.splitOn ',' (pad ++ (name ++ u) ++ ',' :: (v ++ (name' ++ w))) =
        (pad ++ (name ++ u)) :: Text.splitOn ',' (v ++ (name' ++ w)) :=
      Text.splitBy_append (ne_comma_of_padded blanks blanksU isName.toIsIdentifier) (by decide)
    rw [List.append_assoc, List.append_assoc] at cut
    rw [cut, List.forall_mem_cons, trim_name blanks blanksU isName.toIsIdentifier]
    exact ⟨isName, pieces⟩

/-- The names of an entry are pieces of a list in its line, and the list begins behind the characters
that are counted. -/
theorem list_of_entry {entry : Pattern} {line : List Char} {start : Nat} {names : List (List Char)}
    (found : entryNames entry line = some (start, names)) :
    ∃ pad list rest, line = pad ++ (list ++ rest) ∧ start = size pad ∧
      names = (Text.splitOn ',' list).map Text.trim ∧
        (entry.groupPasses "names" (· = nameListRegex) = true →
          '\n' ∉ list ∧ ∀ name ∈ names, IsSymbolName false name) := by
  obtain ⟨⟨s, e⟩, group, shape⟩ := Option.map_eq_some_iff.mp found
  obtain ⟨rfl, rfl⟩ := Prod.mk.inj shape
  obtain ⟨m, first, group⟩ := Option.bind_eq_some_iff.mp group
  obtain ⟨i, _, inside⟩ := Option.bind_eq_some_iff.mp group
  have onward := search?_onward first
  obtain ⟨pad, before⟩ := onward.begins.trans (onward.group? inside).1.1
  obtain ⟨rest, behind⟩ := s.exists_rest_eq e
  refine ⟨pad, s.charsTo e, rest, ?_, ?_, rfl, fun passes => ?_⟩
  · rw [← behind]
    exact before.rest_eq
  · simpa [Point.start] using before.offset_eq
  · obtain ⟨o, _, preferred⟩ :=
      search?_preferred (Pattern.steady_of_passes passes) (Point.start_in line) first
    -- A group that holds a list of names can be read by the shape of that list.
    obtain ⟨part, rfl, takes⟩ : ∃ part, part = nameListRegex ∧ part.Takes s e := by
      simpa using Pattern.exists_part passes preferred group
    obtain ⟨list, whole, single⟩ := takes.avoids (c := '\n') (by decide)
    obtain ⟨a, first, rest⟩ := takes_seqs_append.mp takes
    obtain ⟨n, rounds⟩ := takes_loop.mp rest
    obtain ⟨name, reads, isName⟩ := isName_of_takes first
    have none : ∀ c ∈ ([] : List Char), blank.mem c = true := by simp
    obtain ⟨w, reads', pieces⟩ := pieces_of_rounds rounds none isName
    obtain rfl := whole.chars_unique (reads.trans reads')
    rw [whole.charsTo_eq]
    exact ⟨single, by simpa using pieces⟩

/-- A declaration of a block is one of the names of an entry, on the line that is told by the offset
of the entry. -/
theorem mem_blockHits {entry : Pattern} {kind : SymbolKind} {index : LineIndex}
    {lines : List (List Char)} {offset : Nat} {depth : Int} {x : Export}
    (hit : x ∈ blockHits entry kind index lines offset depth) :
    ∃ above line below start names, lines = above ++ line :: below ∧
      entryNames entry line = some (start, names) ∧ x.name.toList ∈ names ∧
        x.line = index.lineOf (offset + size above.flatten + start) := by
  induction lines generalizing offset depth with
  | nil => cases hit
  | cons line lines ih =>
    rw [blockHits, foldl_size] at hit
    rcases List.mem_append.mp hit with here | later
    · split at here
      · split at here
        next start names found =>
          obtain ⟨name, listed, rfl⟩ := List.mem_map.mp here
          exact ⟨[], line, lines, start, names, rfl, found, by simpa using listed, rfl⟩
        next => cases here
      · cases here
    · obtain ⟨above, line', below, start, names, rfl, found, listed, number⟩ := ih later
      refine ⟨line :: above, line', below, start, names, rfl, found, listed, ?_⟩
      rw [number, List.flatten_cons, size_append, Nat.add_assoc offset]

theorem isName_of_blockHit {entry : Pattern}
    (passes : entry.groupPasses "names" (· = nameListRegex) = true) {kind : SymbolKind}
    {index : LineIndex} {lines : List (List Char)} {offset : Nat} {depth : Int} {x : Export}
    (hit : x ∈ blockHits entry kind index lines offset depth) :
    IsSymbolName false x.name.toList := by
  obtain ⟨_, _, _, _, _, _, found, listed, _⟩ := mem_blockHits hit
  obtain ⟨_, _, _, _, _, _, isNames⟩ := list_of_entry found
  exact (isNames passes).2 _ listed

theorem identifier_of_hit {group : ExportGroup} {dollar : Bool} (named : group.named dollar = true)
    {text : List Char} {index : LineIndex} {x : Export} (hit : x ∈ group.hits text index) :
    IsIdentifier dollar x.name.toList := by
  cases group with
  | nameList pattern identifier =>
    obtain ⟨m, _, listed⟩ := List.mem_flatMap.mp hit
    split at listed
    next => cases listed
    next start stop _ =>
      obtain ⟨piece, _, kept⟩ := List.mem_filterMap.mp listed
      dsimp only at kept
      split at kept
      next => cases kept
      next accepted =>
        cases kept
        rw [String.toList_ofList]
        rw [Bool.or_eq_true, not_or, Bool.not_eq_true', Bool.not_eq_false] at accepted
        simp only [ExportGroup.named, Bool.and_eq_true, Bool.not_eq_true'] at named
        obtain ⟨⟨⟨steady, opens⟩, closes⟩, consumes, chars⟩ := named
        -- The expression for identifiers asks for both ends of the name.
        obtain ⟨q, takes, whole⟩ := exists_takes_whole steady opens closes accepted.2
        obtain ⟨name, reads, isIdentifier⟩ := takes.identifier chars consumes
        rwa [whole.chars_unique reads]
  | block pattern entry =>
    obtain ⟨m, _, listed⟩ := List.mem_flatMap.mp hit
    split at listed
    next => exact ((isName_of_blockHit named listed).mono dollar).toIsIdentifier
    next => cases listed

end ExportGroup

namespace Language

/-- All declared names of a language are identifiers. -/
structure Named (l : Language) (dollar : Bool) : Prop where
  rules : ∀ rules ∈ l.exportRules, ∀ rule ∈ rules, rule.named dollar = true
  groups : ∀ group ∈ l.exportGroups, group.named dollar = true

theorem Named.identifier {l : Language} {dollar : Bool} (named : l.Named dollar) {source : String}
    {symbols : List Export} (found : l.exports? source = some symbols) {x : Export}
    (listed : x ∈ symbols) : IsIdentifier dollar x.name.toList := by
  obtain ⟨rules, given, rfl⟩ := Option.map_eq_some_iff.mp found
  have hit : x ∈ l.exportHits rules source.toList := List.mem_mergeSort.mp listed
  rcases List.mem_append.mp hit with hit | hit
  · obtain ⟨rule, member, hit⟩ := List.mem_flatMap.mp hit
    exact ExportRule.identifier_of_hit (named.rules rules given rule member) hit
  · obtain ⟨group, member, hit⟩ := List.mem_flatMap.mp hit
    exact ExportGroup.identifier_of_hit (named.groups group member) hit

/-- The rules of a language give identifiers that begin as names do. -/
structure Declares (l : Language) (dollar : Bool) : Prop where
  rules : ∀ rules ∈ l.exportRules, ∀ rule ∈ rules, rule.declares dollar = true
  groups : ∀ group ∈ l.exportGroups, group.named dollar = true

theorem Declares.named {l : Language} {dollar : Bool} (declares : l.Declares dollar) :
    l.Named dollar where
  rules rules given rule listed := ExportRule.named_of_declares (declares.rules rules given rule listed)
  groups := declares.groups

end Language

open Pattern

theorem ExportRule.declares_ofText {source : String} {cs : List Char} {kind : SymbolKind}
    {visibility : Visibility} {dollar : Bool} (text : source = String.ofList cs)
    (checked : declares ⟨.ofChars source cs, kind, visibility⟩ dollar = true) :
    declares ⟨.ofText source, kind, visibility⟩ dollar = true := by
  rwa [ofText_eq text]

namespace Language

open List

theorem python_declares : python.Declares false where
  rules := by
    rintro _ ⟨⟩
    refine forall_mem_cons.mpr ⟨?_, forall_mem_cons.mpr ⟨?_, forall_mem_singleton.mpr ?_⟩⟩
    · exact ExportRule.declares_ofText rfl rfl
    · exact ExportRule.declares_ofText rfl rfl
    · exact ExportRule.declares_ofText rfl rfl
  groups := by simp [python]

theorem javaScript_declares : javaScript.Declares true where
  rules := by
    rintro _ ⟨⟩
    refine forall_mem_cons.mpr ⟨?_, forall_mem_cons.mpr ⟨?_, forall_mem_cons.mpr ⟨?_,
      forall_mem_cons.mpr ⟨?_, forall_mem_singleton.mpr ?_⟩⟩⟩⟩
    · exact ExportRule.declares_ofText (joined rfl rfl) rfl
    · exact ExportRule.declares_ofText (joined rfl rfl) rfl
    · exact ExportRule.declares_ofText (joined rfl rfl) rfl
    · exact ExportRule.declares_ofText rfl rfl
    · exact ExportRule.declares_ofText rfl rfl
  groups := forall_mem_singleton.mpr (by decide)

theorem go_declares : go.Declares false where
  rules := by
    rintro _ ⟨⟩
    refine forall_mem_cons.mpr ⟨?_, forall_mem_cons.mpr ⟨?_, forall_mem_cons.mpr ⟨?_,
      forall_mem_singleton.mpr ?_⟩⟩⟩
    · exact ExportRule.declares_ofText rfl rfl
    · exact ExportRule.declares_ofText rfl rfl
    · exact ExportRule.declares_ofText rfl rfl
    · exact ExportRule.declares_ofText rfl rfl
  groups := forall_mem_singleton.mpr (by decide)

theorem rust_declares : rust.Declares false where
  rules := by
    rintro _ ⟨⟩
    refine forall_mem_cons.mpr ⟨?_, forall_mem_cons.mpr ⟨?_, forall_mem_singleton.mpr ?_⟩⟩
    · exact ExportRule.declares_ofText (joined rfl rfl) (by decide +kernel)
    · exact ExportRule.declares_ofText (joined rfl rfl) rfl
    · exact ExportRule.declares_ofText (joined rfl rfl) rfl
  groups := by simp [rust]

theorem java_declares : java.Declares false where
  rules := by
    rintro _ ⟨⟩
    refine forall_mem_cons.mpr ⟨?_, forall_mem_cons.mpr ⟨?_, forall_mem_singleton.mpr ?_⟩⟩
    · exact ExportRule.declares_ofText (joined rfl rfl) (by decide +kernel)
    · exact ExportRule.declares_ofText (joined (joined rfl rfl) rfl) (by decide +kernel)
    · exact ExportRule.declares_ofText (joined rfl rfl) (by decide +kernel)
  groups := by simp [java]

theorem cFamily_declares : cFamily.Declares false where
  rules := by simp [cFamily]
  groups := by simp [cFamily]

/-- Dollar signs are characters of identifiers in JavaScript only. -/
def dollar (l : Language) : Bool := l.name = "JavaScript"

theorem builtin_declares {l : Language} (member : l ∈ LanguageTable.builtin.languages) :
    l.Declares l.dollar := by
  rcases builtin_cases member with rfl | rfl | rfl | rfl | rfl | rfl
  · exact python_declares
  · exact javaScript_declares
  · exact go_declares
  · exact rust_declares
  · exact java_declares
  · exact cFamily_declares

theorem builtin_named {l : Language} (member : l ∈ LanguageTable.builtin.languages) :
    l.Named l.dollar :=
  (builtin_declares member).named

end Language

end Ripple
