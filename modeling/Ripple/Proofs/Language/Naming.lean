import Ripple.Analysis.Dependents
import Ripple.Proofs.Ascending
import Ripple.Proofs.Language.ImportForms
import Ripple.Proofs.Regex.Preferred
import Ripple.Proofs.Text.Pieces

/-!
Modules that name a file. Where an import pattern finds a module, the text before the module and the
text behind it are read by the same parts of a template; only what the pattern captures is read
anew, as a path in which the name of the file has its place.
-/

namespace Ripple

open Regex

namespace Engine

/-- A source contains the name of a module and matches one of the patterns for it. -/
def imports (stem : String) (patterns : List Pattern) (source : String) : Bool :=
  mentions stem source && patterns.any (·.matchesIn source.toList)

theorem imports_iff {stem source : String} {patterns : List Pattern} :
    imports stem patterns source = true ↔ stem.toList <:+: source.toList ∧
      ∃ pattern ∈ patterns, pattern.matchesIn source.toList = true := by
  rw [imports, mentions, Bool.and_eq_true, Text.contains_iff, List.any_eq_true]

end Engine

namespace Language

open Language.Part

/-- The ending of a source of JavaScript or a relative of it. -/
def JavaScript.IsEnding (ending : List Char) : Prop :=
  ∃ kind ∈ [[], ['c'], ['m']], ∃ language ∈ ['j', 't'], ∃ dialect ∈ [[], ['x']],
    ending = '.' :: (kind ++ language :: 's' :: dialect)

/-- An imported module names a file by the stem of its name. -/
inductive Names : Language → List Char → List Char → Prop
  | python {imported stem : List Char} : stem ≠ [] → Text.lastPart '.' imported = stem →
      Names .python imported stem
  | javaScript {imported stem ending : List Char} : ending = [] ∨ JavaScript.IsEnding ending →
      Text.lastPart '/' imported = stem ++ ending → Names .javaScript imported stem
  | go {imported stem : List Char} : Text.lastPart '/' imported = stem → Names .go imported stem
  | java {imported stem : List Char} {words star : List (List Char)} :
      (∀ word ∈ words, word ≠ [] ∧ ∀ c ∈ word, Unicode.isWord c = true) →
      star = [] ∨ star = [['*']] → Text.splitOn '.' imported = words ++ star → stem ∈ words →
      Names .java imported stem
  | cFamily {imported stem ending : List Char} : ending ≠ [] →
      (∀ c ∈ ending, Unicode.isWord c = true) →
      Text.lastPart '/' imported = stem ++ '.' :: ending → '"' ∉ imported → '>' ∉ imported →
      Names .cFamily imported stem

/-- No text in quotes that names the module has blanks at its ends. -/
def Unpadded (l : Language) (text imported : List Char) : Prop :=
  ∀ rule ∈ l.importRules ++ l.localImportRules, rule.reading = .whole →
    ∀ m ∈ rule.pattern.matchesOf text, ∀ s e, m.group? 1 = some (s, e) →
      Text.trim (s.charsTo e) = imported → s.charsTo e = imported

theorem mem_imports {l : Language} {source : String} {i : Import} (member : i ∈ l.imports source) :
    ∃ rule ∈ l.importRules ++ l.localImportRules, i.name ∈ rule.modules source.toList := by
  have listed : ∀ (rules : List ImportRule) (name : String),
      name ∈ modulesBy rules source.toList → ∃ rule ∈ rules, name ∈ rule.modules source.toList :=
    fun rules name found => List.mem_flatMap.mp (Text.mem_ascending.mp found)
  rcases List.mem_append.mp member with member | member
  · obtain ⟨name, found, rfl⟩ := List.mem_map.mp member
    obtain ⟨rule, here, modules⟩ := listed _ name found
    exact ⟨rule, List.mem_append_left _ here, modules⟩
  · obtain ⟨name, found, rfl⟩ := List.mem_map.mp member
    obtain ⟨rule, here, modules⟩ := listed _ name (List.mem_filter.mp found).1
    exact ⟨rule, List.mem_append_right _ here, modules⟩

theorem exists_import_iff {l : Language} {source name : String} :
    (∃ i ∈ l.imports source, i.name = name) ↔
      ∃ rule ∈ l.importRules ++ l.localImportRules, name ∈ rule.modules source.toList := by
  constructor
  · rintro ⟨i, member, rfl⟩
    exact mem_imports member
  · rintro ⟨rule, here, found⟩
    have listed : ∀ {rules : List ImportRule}, rule ∈ rules →
        name ∈ modulesBy rules source.toList :=
      fun here => Text.mem_ascending.mpr (List.mem_flatMap.mpr ⟨rule, here, found⟩)
    by_cases first : name ∈ modulesBy l.importRules source.toList
    · exact ⟨_, List.mem_append_left _ (List.mem_map.mpr ⟨name, first, rfl⟩), rfl⟩
    · rcases List.mem_append.mp here with here | here
      · exact absurd (listed here) first
      · refine ⟨_, List.mem_append_right _ (List.mem_map.mpr ⟨name, ?_, rfl⟩), rfl⟩
        exact List.mem_filter.mpr ⟨listed here, by simpa using first⟩

theorem mem_modules_iff {rule : ImportRule} {text : List Char} {name : String} :
    name ∈ rule.modules text ↔ name ≠ "" ∧ ∃ m ∈ rule.pattern.matchesOf text, ∃ s e,
      m.group? 1 = some (s, e) ∧ name.toList ∈ rule.reading.modules (s.charsTo e) := by
  rw [ImportRule.modules]
  split
  next extent => simp [extent, ImportReading.modules]
  next =>
    constructor
    · intro member
      obtain ⟨m, found, listed⟩ := List.mem_flatMap.mp member
      split at listed
      next => simp at listed
      next s e captured =>
        obtain ⟨chars, kept, rfl⟩ := List.mem_map.mp listed
        obtain ⟨read, nonempty⟩ := List.mem_filter.mp kept
        exact ⟨by simpa using nonempty, m, found, s, e, captured, by simpa using read⟩
    · rintro ⟨nonempty, m, found, s, e, captured, read⟩
      refine List.mem_flatMap.mpr ⟨m, found, ?_⟩
      rw [captured]
      refine List.mem_map.mpr ⟨name.toList, List.mem_filter.mpr ⟨read, ?_⟩, String.ofList_toList⟩
      simpa using nonempty

theorem mem_modules {rule : ImportRule} {text : List Char} {name : String}
    (member : name ∈ rule.modules text) :
    ∃ m ∈ rule.pattern.matchesOf text, ∃ s e, m.group? 1 = some (s, e) ∧
      name.toList ∈ rule.reading.modules (s.charsTo e) :=
  (mem_modules_iff.mp member).2

/-- The parts of a pattern lead through a match, and its group spans the part within it. -/
theorem exists_spans_of_match {r body : Regex} {front back : List Regex}
    (shape : r = seqs (front ++ group 1 body :: back))
    (fine : (seqs (front ++ group 1 body :: back)).steady = true ∧ body.hasGroup 1 = false ∧
      (seqs back).hasGroup 1 = false)
    {text : List Char} {m : Match} (found : m ∈ r.matchesOf text) :
    ∃ p s e q, m.group? 1 = some (s, e) ∧ p.In text ∧ (seqs front).Takes p s ∧ body.Takes s e ∧
      (seqs back).Takes e q := by
  rw [shape] at found
  obtain ⟨p, inside, preferred⟩ := mem_matchesOf fine.1 found
  obtain ⟨a, first, b, second, third, spans⟩ :=
    outcomes_group fine.2.1 fine.2.2 (List.mem_of_head? preferred)
  exact ⟨p, a.stop, b.stop, m.stop, spans, inside, outcomes_takes first,
    outcomes_takes (m := a.enter 1) second, outcomes_takes (m := b.leave 1) third⟩

theorem spans_of_match {r body : Regex} {front back : List Regex}
    (shape : r = seqs (front ++ group 1 body :: back))
    (fine : (seqs (front ++ group 1 body :: back)).steady = true ∧ body.hasGroup 1 = false ∧
      (seqs back).hasGroup 1 = false)
    {text : List Char} {m : Match} {s e : Point} (found : m ∈ r.matchesOf text)
    (captured : m.group? 1 = some (s, e)) :
    ∃ p q, p.In text ∧ (seqs front).Takes p s ∧ body.Takes s e ∧ (seqs back).Takes e q := by
  obtain ⟨p, a, b, q, spans, parts⟩ := exists_spans_of_match shape fine found
  obtain ⟨rfl, rfl⟩ : a = s ∧ b = e := by
    simpa using Option.some.inj (spans.symm.trans captured)
  exact ⟨p, q, parts⟩

/-- A group at the end of a pattern spans what its body prefers. -/
theorem picks_of_match {r body : Regex} {front : List Regex}
    (shape : r = seqs (front ++ group 1 body :: []))
    (fine : (seqs (front ++ group 1 body :: [])).steady = true ∧ body.hasGroup 1 = false)
    {text : List Char} {m : Match} {s e : Point} (found : m ∈ r.matchesOf text)
    (captured : m.group? 1 = some (s, e)) :
    ∃ p a b, p.In text ∧ (seqs front).Takes p s ∧ body.Picks a b ∧ a.stop = s ∧ b.stop = e := by
  rw [shape] at found
  obtain ⟨p, inside, preferred⟩ := mem_matchesOf fine.1 found
  obtain ⟨a, first, picks⟩ := picks_seqs_append (n := m) preferred
  obtain ⟨b, second, rfl⟩ := picks_group picks
  have spans := (remembers_group fine.2 second.mem).group?
  obtain ⟨rfl, rfl⟩ : a.stop = s ∧ b.stop = e := by
    simpa using Option.some.inj (spans.symm.trans captured)
  exact ⟨p, a.enter 1, b, inside, outcomes_takes first, second, rfl, rfl⟩

/-- One of some forms, filled with a name, leads through a part of a text. -/
def FoundIn (forms : List Form) (name text : List Char) : Prop :=
  ∃ form ∈ forms, ∃ p a b q, p.In text ∧ (seqs form.1).Takes p a ∧ a.Reads name b ∧
    (seqs form.2).Takes b q

theorem steady_seqs {rs : List Regex} (steady : ∀ r ∈ rs, r.steady = true) :
    (seqs rs).steady = true := by
  induction rs with
  | nil => rfl
  | cons r rs ih =>
    simp only [List.mem_cons, forall_eq_or_imp] at steady
    cases rs with
    | nil => exact steady.1
    | cons s rs => simp only [seqs, Regex.steady, steady.1, Bool.true_and, ih steady.2]

theorem Form.filled_steady {form : Form} (steady : ∀ r ∈ form.1 ++ form.2, r.steady = true)
    (name : String) : (form.filled name).steady = true := by
  refine steady_seqs fun r here => ?_
  have parts := steady r
  simp only [List.mem_append, List.mem_map] at here parts
  rcases here with (here | ⟨c, _, rfl⟩) | here
  · exact parts (.inl here)
  · rfl
  · exact parts (.inr here)

/-- A filled form matches where its front, the name and its back are read one after another. -/
theorem Form.matchesIn_filled_iff {form : Form} (steady : ∀ r ∈ form.1 ++ form.2, r.steady = true)
    {name : String} {text : List Char} :
    (form.filled name).matchesIn text = true ↔ FoundIn [form] name.toList text := by
  rw [matchesIn_iff (filled_steady steady name), Form.filled]
  constructor
  · rintro ⟨p, q, inside, takes⟩
    obtain ⟨b, takes, last⟩ := takes_seqs_append.mp takes
    obtain ⟨a, first, reads⟩ := takes_seqs_append.mp takes
    exact ⟨form, List.mem_singleton_self _, p, a, b, q, inside, first, takes_chars.mp reads, last⟩
  · rintro ⟨_, member, p, a, b, q, inside, first, reads, last⟩
    obtain rfl := List.mem_singleton.mp member
    exact ⟨p, q, inside, takes_seqs_append.mpr
      ⟨b, takes_seqs_append.mpr ⟨a, first, takes_chars.mpr reads⟩, last⟩⟩

theorem FoundIn.occurs {forms : List Form} {name text : List Char} (found : FoundIn forms name text) :
    name <:+: text := by
  obtain ⟨form, _, p, a, b, q, ⟨u, start⟩, first, reads, _⟩ := found
  obtain ⟨v, middle, _⟩ := first.reads
  have whole := ((start.trans middle).trans reads).rest_eq
  exact ⟨u ++ v, b.rest, whole.symm⟩

/-- The patterns for a module match where one of the forms is found with its name. -/
theorem Formed.matches_iff {l : Language} {forms : List Form} (formed : l.Formed forms)
    (steady : ∀ form ∈ forms, ∀ r ∈ form.1 ++ form.2, r.steady = true) {name : String}
    {text : List Char} {patterns : List Pattern}
    (compiled : l.dependencyPatterns name = .ok patterns) :
    (∃ pattern ∈ patterns, pattern.matchesIn text = true) ↔ FoundIn forms name.toList text := by
  rcases formed.cases name with ⟨patterns', compiled', each⟩ | ⟨refused, _⟩
  · obtain rfl : patterns = patterns' := by simpa [compiled] using compiled'
    constructor
    · rintro ⟨pattern, listed, matched⟩
      have kept : pattern.regex ∈ forms.map (·.filled name) := each ▸ List.mem_map_of_mem listed
      obtain ⟨form, member, shape⟩ := List.mem_map.mp kept
      rw [Pattern.matchesIn, ← shape, Form.matchesIn_filled_iff (steady form member)] at matched
      obtain ⟨_, single, found⟩ := matched
      obtain rfl := List.mem_singleton.mp single
      exact ⟨_, member, found⟩
    · rintro ⟨form, member, found⟩
      have kept : form.filled name ∈ patterns.map (·.regex) := each ▸ List.mem_map_of_mem member
      obtain ⟨pattern, listed, shape⟩ := List.mem_map.mp kept
      refine ⟨pattern, listed, ?_⟩
      rw [Pattern.matchesIn, shape, Form.matchesIn_filled_iff (steady form member)]
      exact ⟨form, List.mem_singleton_self _, found⟩
  · rw [compiled] at refused
    cases refused

/-- A source in which a form is found imports the module. -/
theorem imports_of_foundIn {l : Language} {forms : List Form} (formed : l.Formed forms)
    (steady : ∀ form ∈ forms, ∀ r ∈ form.1 ++ form.2, r.steady = true) {stem source : String}
    (fitting : l.dependencyPatterns stem ≠ .error .tooBig)
    (found : FoundIn forms stem.toList source.toList) :
    ∃ patterns, l.dependencyPatterns stem = .ok patterns ∧
      Engine.imports stem patterns source = true := by
  rcases formed.cases stem with ⟨patterns, compiled, _⟩ | ⟨refused, _⟩
  · exact ⟨patterns, compiled, Engine.imports_iff.mpr
      ⟨found.occurs, (formed.matches_iff steady compiled).mpr found⟩⟩
  · exact absurd refused fitting

/-- What matches one of the patterns for a module contains its name. -/
theorem Formed.occurs_of_match {l : Language} {forms : List Form} (formed : l.Formed forms)
    (steady : ∀ form ∈ forms, ∀ r ∈ form.1 ++ form.2, r.steady = true) {stem source : String}
    {patterns : List Pattern} (compiled : l.dependencyPatterns stem = .ok patterns)
    {pattern : Pattern} (listed : pattern ∈ patterns)
    (matched : pattern.matchesIn source.toList = true) : stem.toList <:+: source.toList :=
  ((formed.matches_iff steady compiled).mp ⟨pattern, listed, matched⟩).occurs

/-- A path is read as what leads to its last part, and that part. -/
theorem takes_leading {set : CharSet} (sep : Char) {w : List Char}
    (members : ∀ c ∈ w, set.mem c = true) {p q : Point} (reads : p.Reads w q) :
    ∃ a, (leading set sep).Takes p a ∧ a.Reads (Text.lastPart sep w) q := by
  obtain ⟨_, front, whole, shape⟩ := Text.eq_append_lastPart sep w
  rw [whole] at reads
  obtain ⟨a, first, second⟩ := Point.reads_append.mp reads
  refine ⟨a, takes_optional.mpr ?_, second⟩
  rcases shape with rfl | ⟨dir, rfl⟩
  · exact .inl first
  · obtain ⟨o, inner, last⟩ := Point.reads_append.mp first
    refine .inr ⟨o, takes_run.mpr ⟨dir, Nat.zero_le _, ?_, inner⟩, last⟩
    intro c member
    apply members
    rw [whole]
    simp [member]

theorem takes_several {set : CharSet} {p q : Point} (takes : (several set).Takes p q) :
    ∃ w, w ≠ [] ∧ (∀ c ∈ w, set.mem c = true) ∧ p.Reads w q := by
  obtain ⟨w, least, members, reads⟩ := takes_run.mp takes
  exact ⟨w, List.length_pos_iff.mp least, members, reads⟩

/-- A word begins where no character of a word precedes. -/
theorem takes_edge_before {w rest : List Char} {c : Char} (nonempty : w ≠ [])
    (apart : ∀ d ∈ w.getLast?, Unicode.isWord d = false) {a b : Point} (reads : a.Reads w b)
    (ahead : b.rest = c :: rest) (word : Unicode.isWord c = true) : edge.Takes b b := by
  obtain ⟨init, d, rfl⟩ := (List.eq_nil_or_concat' w).resolve_left nonempty
  have before := apart d (by simp)
  refine ⟨?_, rfl⟩
  simp [Assertion.holds, WordEdge.holds, reads.before_eq, before, ahead, word]

/-- A word ends where no character of a word follows. -/
theorem takes_edge {w : List Char} (nonempty : w ≠ []) (word : ∀ c ∈ w, Unicode.isWord c = true)
    {a b : Point} (reads : a.Reads w b) (ends : ∀ c ∈ b.rest.head?, Unicode.isWord c = false) :
    edge.Takes b b := by
  obtain ⟨init, c, rfl⟩ := (List.eq_nil_or_concat' w).resolve_left nonempty
  have before := word c (by simp)
  refine ⟨?_, rfl⟩
  cases next : b.rest.head? with
  | none => simp [Assertion.holds, WordEdge.holds, reads.before_eq, before, next]
  | some d => simp [Assertion.holds, WordEdge.holds, reads.before_eq, before, next, ends d next]

namespace JavaScript

theorem takes_extension {ending : List Char} (form : ending = [] ∨ IsEnding ending) {p q : Point}
    (reads : p.Reads ending q) : (maybe extension).Takes p q := by
  rw [maybe, takes_optional]
  rcases form with rfl | ⟨kind, oneKind, language, oneLanguage, dialect, oneDialect, rfl⟩
  · exact .inl reads
  · obtain ⟨a, dot, reads⟩ := reads.uncons
    obtain ⟨b, first, reads⟩ := Point.reads_append.mp reads
    obtain ⟨c, second, reads⟩ := reads.uncons
    obtain ⟨d, letter, third⟩ := reads.uncons
    -- The parts of an ending are those of the expression, each with its few choices.
    have kinds : (maybe (.set (.unions [.single 'c', .single 'm']))).Takes a b := by
      rw [maybe, takes_optional]
      simp only [List.mem_cons, List.not_mem_nil, or_false] at oneKind
      rcases oneKind with rfl | rfl | rfl
      · exact .inl first
      · exact .inr ⟨'c', rfl, first⟩
      · exact .inr ⟨'m', rfl, first⟩
    have languages : (Regex.set (.unions [.single 'j', .single 't'])).Takes b c := by
      simp only [List.mem_cons, List.not_mem_nil, or_false] at oneLanguage
      rcases oneLanguage with rfl | rfl
      · exact ⟨'j', rfl, second⟩
      · exact ⟨'t', rfl, second⟩
    have dialects : (maybe (.char 'x')).Takes d q := by
      rw [maybe, takes_optional]
      simp only [List.mem_cons, List.not_mem_nil, or_false] at oneDialect
      rcases oneDialect with rfl | rfl
      · exact .inl third
      · exact .inr third
    exact .inr ⟨a, dot, b, kinds, c, languages, d, letter, dialects⟩

/-- Where a quoted module names a file, the form with that name is found. -/
theorem foundIn {front back : List Regex}
    (form : (front ++ [leading plain '/'], maybe extension :: back) ∈ forms) {text w : List Char}
    {stem ending : List Char} {p s e q : Point} (inside : p.In text)
    (first : (seqs front).Takes p s) (members : ∀ c ∈ w, plain.mem c = true) (reads : s.Reads w e)
    (last : (seqs back).Takes e q) (kind : ending = [] ∨ IsEnding ending)
    (named : Text.lastPart '/' w = stem ++ ending) : FoundIn forms stem text := by
  obtain ⟨a, leads, part⟩ := takes_leading '/' members reads
  rw [named] at part
  obtain ⟨b, name, rest⟩ := Point.reads_append.mp part
  exact ⟨_, form, p, a, b, q, inside, takes_seqs_append.mpr ⟨s, first, leads⟩, name,
    takes_seqs_cons.mpr ⟨e, takes_extension kind rest, last⟩⟩

end JavaScript

namespace Go

/-- Where a quoted module names a file, the form with that name is found. -/
theorem foundIn {front : List Regex} (form : (front ++ [leading plain '/'], [char '"']) ∈ forms)
    {text w : List Char} {p s e q : Point} (inside : p.In text) (first : (seqs front).Takes p s)
    (members : ∀ c ∈ w, plain.mem c = true) (reads : s.Reads w e) (last : e.Reads ['"'] q) :
    FoundIn forms (Text.lastPart '/' w) text := by
  obtain ⟨a, leads, name⟩ := takes_leading '/' members reads
  exact ⟨_, form, p, a, e, q, inside, takes_seqs_append.mpr ⟨s, first, leads⟩, name, last⟩

end Go

namespace Java

theorem takes_loop_flatMap {r : Regex} {each : List Char → List Char} {ws : List (List Char)}
    (single : ∀ w ∈ ws, ∀ p q, Point.Reads p (each w) q → r.Takes p q) {p q : Point}
    (reads : p.Reads (ws.flatMap each) q) : (loop r).Takes p q := by
  rw [loop, takes_loop]
  induction ws generalizing p with
  | nil => exact ⟨0, reads⟩
  | cons w ws ih =>
    simp only [List.mem_cons, forall_eq_or_imp] at single
    rw [List.flatMap_cons] at reads
    obtain ⟨o, first, rest⟩ := Point.reads_append.mp reads
    obtain ⟨n, iterated⟩ := ih single.2 rest
    exact ⟨n + 1, o, single.1 p o first, iterated⟩

/-- Where one of the parts of a module is the name of a file, the form with that name is found. -/
theorem foundIn {text w stem : List Char} {words star : List (List Char)} {p s e q : Point}
    (inside : p.In text) (first : (seqs importFront).Takes p s) (reads : s.Reads w e)
    (last : (seqs importBack).Takes e q)
    (parts : ∀ word ∈ words, word ≠ [] ∧ ∀ c ∈ word, Unicode.isWord c = true)
    (ends : star = [] ∨ star = [['*']]) (pieces : Text.splitOn '.' w = words ++ star)
    (member : stem ∈ words) : FoundIn forms stem text := by
  obtain ⟨before, behind, rfl⟩ := List.append_of_mem member
  rw [List.append_assoc, List.cons_append] at pieces
  rw [Text.eq_of_splitOn pieces] at reads
  obtain ⟨a, front, reads⟩ := Point.reads_append.mp reads
  obtain ⟨b, name, rest⟩ := Point.reads_append.mp reads
  -- The pieces before the name are words with dots behind them.
  have heads : (loop (.seq (several .word) (.char '.'))).Takes s a := by
    apply takes_loop_flatMap _ front
    intro word listed p q reads
    obtain ⟨some, members⟩ := parts word (List.mem_append_left _ listed)
    obtain ⟨o, inner, dot⟩ := Point.reads_append.mp reads
    exact ⟨o, takes_run.mpr ⟨word, List.length_pos_iff.mpr some, members, inner⟩, dot⟩
  -- The pieces behind it are words, or at last a star, with dots in front of them.
  have tails : (loop (.seq (.char '.') (several (.unions [.word, .single '*'])))).Takes b e := by
    apply takes_loop_flatMap _ rest
    intro word listed p q reads
    obtain ⟨o, dot, inner⟩ := reads.uncons
    refine ⟨o, dot, takes_run.mpr ⟨word, ?_, ?_, inner⟩⟩ <;>
      rcases List.mem_append.mp listed with listed | listed
    · exact List.length_pos_iff.mpr (parts word (by simp [listed])).1
    · rcases ends with rfl | rfl <;> simp_all
    · intro c here
      have := (parts word (by simp [listed])).2 c here
      simp [CharSet.mem, CharSet.unions, this]
    · rcases ends with rfl | rfl
      · simp at listed
      · obtain rfl := List.mem_singleton.mp listed
        simp [CharSet.mem, CharSet.unions, CharSet.single]
  exact ⟨_, List.mem_cons_self, p, a, b, q, inside, takes_seqs_append.mpr ⟨s, first, heads⟩, name,
    takes_seqs_cons.mpr ⟨e, tails, last⟩⟩

end Java

namespace CFamily

/-- Where an included path names a file, the form with that name is found. -/
theorem foundIn {text w stem ending : List Char} {p s o e q : Point} (inside : p.In text)
    (first : (seqs includeFront).Takes p o)
    (opens : (Regex.set (.unions [.single '<', .single '"'])).Takes o s)
    (members : ∀ c ∈ w, (except ['>', '"', '\n']).mem c = true) (reads : s.Reads w e)
    (closes : (Regex.set (.unions [.single '>', .single '"'])).Takes e q)
    (some : ending ≠ []) (word : ∀ c ∈ ending, Unicode.isWord c = true)
    (named : Text.lastPart '/' w = stem ++ '.' :: ending) : FoundIn forms stem text := by
  obtain ⟨a, leads, part⟩ := takes_leading '/' members reads
  rw [named] at part
  obtain ⟨b, name, rest⟩ := Point.reads_append.mp part
  obtain ⟨d, dot, rest⟩ := rest.uncons
  have tail : (several .word).Takes d e :=
    takes_run.mpr ⟨ending, List.length_pos_iff.mpr some, word, rest⟩
  exact ⟨_, List.mem_cons_self, p, a, b, q, inside,
    takes_seqs_append.mpr ⟨o, first, s, opens, leads⟩, name, d, dot, e, tail, closes⟩

end CFamily

end Language

end Ripple
