import Ripple.Proofs.Language.Spacing
import Ripple.Proofs.Regex.Preferred

/-!
Declarations that begin a line with some words and then give a name. The words that a pattern asks
for are found among the words of the line, and it is decided by the words alone whether a pattern
goes with a line. The name is read to its end, also where nothing has to follow it.
-/

namespace Ripple

open Regex Ripple.Language Language.Part

/-- How the names of a language are made: of a first character and of further ones. -/
structure NameForm where
  first : CharSet
  further : CharSet
  /-- The least number of further characters. -/
  least : Nat

namespace NameForm

def regex (n : NameForm) : Regex := seqs [.set n.first, .rep (.set n.further) n.least none true]

def Names (n : NameForm) : List Char → Prop
  | [] => False
  | c :: w => n.first.mem c = true ∧ n.least ≤ w.length ∧ ∀ d ∈ w, n.further.mem d = true

/-- No name can go on with the text. -/
def Ends (n : NameForm) (text : List Char) : Prop := ∀ c ∈ text.head?, n.further.mem c = false

/-- Whether names can be told from the blanks before them and from the line feed behind them. -/
def clear (n : NameForm) : Bool :=
  !n.first.mem ' ' && !n.first.mem '\t' && !n.further.mem '\n'

theorem solid_first (n : NameForm) (clear : n.clear = true) {c : Char} (first : n.first.mem c = true) :
    blank.mem c = false := by
  simp only [NameForm.clear, Bool.and_eq_true, Bool.not_eq_true'] at clear
  rw [← Bool.not_eq_true, blank_mem_iff]
  rintro (rfl | rfl)
  · simp [clear.1.1] at first
  · simp [clear.1.2] at first

theorem feed_ends (n : NameForm) (clear : n.clear = true) : n.further.mem '\n' = false := by
  simp only [NameForm.clear, Bool.and_eq_true, Bool.not_eq_true'] at clear
  exact clear.2

variable {n : NameForm}

theorem takes_iff {p q : Point} : n.regex.Takes p q ↔ ∃ name, n.Names name ∧ p.Reads name q := by
  rw [regex, takes_seqs_cons]
  constructor
  · rintro ⟨o, ⟨c, member, reads⟩, run⟩
    obtain ⟨w, enough, members, reads'⟩ := takes_run.mp run
    exact ⟨c :: w, ⟨member, enough, members⟩, reads.trans reads'⟩
  · rintro ⟨name, named, reads⟩
    cases name with
    | nil => exact named.elim
    | cons c w =>
      obtain ⟨o, first, rest⟩ := reads.uncons
      exact ⟨o, ⟨c, named.1, first⟩, takes_run.mpr ⟨w, named.2.1, named.2.2, rest⟩⟩

theorem Names.not_mem {name : List Char} (named : n.Names name) {c : Char}
    (first : n.first.mem c = false) (further : n.further.mem c = false) : c ∉ name := by
  cases name with
  | nil => exact named.elim
  | cons d w =>
    rintro (_ | ⟨_, listed⟩)
    · simp [named.1] at first
    · simp [named.2.2 c listed] at further

theorem Names.first {name : List Char} (named : n.Names name) {behind : List Char} {c : Char}
    (first : c ∈ (name ++ behind).head?) : n.first.mem c = true := by
  cases name with
  | nil => exact named.elim
  | cons d w =>
    obtain rfl : d = c := by simpa using first
    exact named.1

/-- A name is read to its end. -/
theorem eq_of_names {name name' rest rest' : List Char} (named : n.Names name)
    (named' : n.Names name') (ends : n.Ends rest) (ends' : n.Ends rest')
    (same : name ++ rest = name' ++ rest') : name = name' ∧ rest = rest' := by
  cases name with
  | nil => exact named.elim
  | cons c w =>
    cases name' with
    | nil => exact named'.elim
    | cons c' w' =>
      obtain ⟨rfl, tails⟩ := List.cons.inj same
      obtain ⟨rfl, rfl⟩ := Text.run_unique named.2.2 named'.2.2 ends ends' tails
      exact ⟨rfl, rfl⟩

/-- Whether an expression may only follow the end of a name. -/
def Stops (n : NameForm) (back : List Regex) : Prop :=
  back = [] ∨ (seqs back).nullable = false ∧
    ∀ c, (seqs back).begins c = true → n.further.mem c = false

/-- A match gives the name that it finds behind the front, read to its end. -/
theorem name_of_preferred {front back : List Regex} (stops : n.Stops back)
    (behind : (seqs back).hasGroup 1 = false) {p : Point} {m : Match}
    (found : (seqs (front ++ group 1 n.regex :: back)).preferred? p = some m) :
    ∃ a b name, (seqs front).Takes p a ∧ n.Names name ∧ a.Reads name b ∧ n.Ends b.rest ∧
      m.group? 1 = some (a, b) := by
  rcases stops with rfl | ⟨consumes, ends⟩
  · obtain ⟨a, first, second⟩ := picks_seqs_append found
    obtain ⟨b, body, rfl⟩ := picks_group second
    obtain ⟨name, named, reads⟩ := takes_iff.mp body.takes
    -- Nothing has to follow, so the name is as long as it can be.
    obtain ⟨c, _, run⟩ := @picks_seqs_append [.set n.first] [_] _ _ body
    exact ⟨a.stop, b.stop, name, outcomes_takes first, named, reads, picks_run_ends run,
      (remembers_group rfl body.mem).group?⟩
  · obtain ⟨a, first, b, second, last, group⟩ := outcomes_group rfl behind (List.mem_of_head? found)
    obtain ⟨name, named, reads⟩ := takes_iff.mp (outcomes_takes second)
    obtain ⟨w, more, some⟩ := (outcomes_takes last).reads
    refine ⟨a.stop, b.stop, name, outcomes_takes first, named, reads, fun c next => ?_, group⟩
    cases w with
    | nil => exact absurd rfl (some consumes)
    | cons d w =>
      have rest : b.stop.rest = d :: (w ++ m.stop.rest) := more.rest_eq
      obtain rfl : d = c := by simpa [rest] using next
      exact ends d ((outcomes_takes last).begins more)

end NameForm

/-- What a pattern asks for in the place of a word: a word, a word that may be left out, or one of
some words. -/
inductive Slot where
  | word (text : String)
  | optional (text : String)
  | oneOf (texts : List String)

namespace Slot

open Text

def regexes : Slot → List Regex
  | word w => letters w ++ [several blank]
  | optional w => [maybe (seqs (letters w ++ [several blank]))]
  | oneOf ws => [alts (ws.map fun w => seqs (letters w)), several blank]

/-- What may stand in the place. -/
def choices : Slot → List (List (List Char))
  | word w => [[w.toList]]
  | optional w => [[], [w.toList]]
  | oneOf ws => ws.map fun w => [w.toList]

/-- Whether the words can be told from blanks. -/
def solid : Slot → Bool
  | word w | optional w => isSolid w.toList
  | oneOf ws => ws != [] && ws.all fun w => isSolid w.toList

/-- The rows of words that places one after another ask for. -/
def rows : List Slot → List (List (List Char))
  | [] => [[]]
  | slot :: slots => slot.choices.flatMap fun words => (rows slots).map (words ++ ·)

theorem takes_word {w : String} (solid : isSolid w.toList = true) {p q : Point} :
    (seqs (letters w ++ [several blank])).Takes p q ↔
      ∃ head, Spaced [w.toList] head ∧ p.Reads head q := by
  rw [takes_seqs_append]
  constructor
  · rintro ⟨o, first, second⟩
    obtain ⟨gap, some, blanks, reads⟩ := takes_run.mp second
    exact ⟨_, spaced_singleton.mpr ⟨solid, gap, List.length_pos_iff.mp some, blanks, rfl⟩,
      (takes_chars.mp first).trans reads⟩
  · rintro ⟨head, spaced, reads⟩
    obtain ⟨_, gap, some, blanks, rfl⟩ := spaced_singleton.mp spaced
    obtain ⟨o, first, second⟩ := Point.reads_append.mp reads
    exact ⟨o, takes_chars.mpr first,
      takes_run.mpr ⟨gap, List.length_pos_iff.mpr some, blanks, second⟩⟩

theorem takes_alts {rs : List Regex} (some : rs ≠ []) {p q : Point} :
    (alts rs).Takes p q ↔ ∃ r ∈ rs, r.Takes p q := by
  induction rs with
  | nil => contradiction
  | cons r rs ih =>
    cases rs with
    | nil => simp [alts]
    | cons s rs => simp [alts, Takes, ih]

theorem takes_regexes {slot : Slot} (solid : slot.solid = true) {p q : Point} :
    (seqs slot.regexes).Takes p q ↔
      ∃ words ∈ slot.choices, ∃ head, Spaced words head ∧ p.Reads head q := by
  cases slot with
  | word w => simpa [regexes, choices] using takes_word solid
  | optional w =>
    have none : (∃ head, Spaced [] head ∧ p.Reads head q) ↔ q = p := by
      constructor
      · rintro ⟨_, ⟨⟩, reads⟩
        exact reads
      · rintro rfl
        exact ⟨[], .nil, rfl⟩
    simp only [choices, List.mem_cons, List.not_mem_nil, or_false, exists_eq_or_imp, exists_eq_left,
      none, ← takes_word solid]
    exact takes_optional
  | oneOf ws =>
    simp only [Slot.solid, Bool.and_eq_true, bne_iff_ne, List.all_eq_true] at solid
    -- Each of the words is read with the blanks behind the choice.
    have each : ∀ w ∈ ws, (∃ o, (seqs (letters w)).Takes p o ∧ (several blank).Takes o q) ↔
        ∃ head, Spaced [w.toList] head ∧ p.Reads head q := fun w listed => by
      rw [← takes_word (solid.2 w listed), takes_seqs_append]
      rfl
    rw [regexes, takes_seqs_cons]
    simp only [takes_alts (List.map_eq_nil_iff.not.mpr solid.1), List.mem_map, exists_exists_and_eq_and,
      choices]
    constructor
    · rintro ⟨o, ⟨w, listed, first⟩, second⟩
      exact ⟨w, listed, (each w listed).mp ⟨o, first, second⟩⟩
    · rintro ⟨w, listed, spaced⟩
      obtain ⟨o, first, second⟩ := (each w listed).mpr spaced
      exact ⟨o, ⟨w, listed, first⟩, second⟩

/-- Places one after another read the words of a row, each with blanks behind it. -/
theorem takes_row {slots : List Slot} (solid : ∀ slot ∈ slots, slot.solid = true) {p q : Point} :
    (seqs (slots.flatMap regexes)).Takes p q ↔
      ∃ row ∈ rows slots, ∃ head, Spaced row head ∧ p.Reads head q := by
  induction slots generalizing p with
  | nil =>
    simp only [List.flatMap_nil, rows, List.mem_singleton, exists_eq_left]
    constructor
    · rintro rfl
      exact ⟨[], .nil, rfl⟩
    · rintro ⟨_, ⟨⟩, reads⟩
      exact reads
  | cons slot slots ih =>
    obtain ⟨here, later⟩ := List.forall_mem_cons.mp solid
    rw [List.flatMap_cons, takes_seqs_append]
    simp only [takes_regexes here, ih later, rows, List.mem_flatMap, List.mem_map]
    constructor
    · rintro ⟨o, ⟨words, chosen, head, spaced, reads⟩, row, listed, tail, spaced', reads'⟩
      exact ⟨_, ⟨words, chosen, row, listed, rfl⟩, _, spaced.append spaced', reads.trans reads'⟩
    · rintro ⟨_, ⟨words, chosen, row, listed, rfl⟩, head, spaced, reads⟩
      -- Words with blanks behind them can be cut behind any word.
      obtain ⟨first, second, rfl, one, two⟩ := spaced.split
      obtain ⟨o, begin, rest⟩ := Point.reads_append.mp reads
      exact ⟨o, ⟨words, chosen, first, one, begin⟩, row, listed, second, two, rest⟩

/-- The rows that some words begin with. -/
def leading (slots : List Slot) (words : List (List Char)) : List (List (List Char)) :=
  (rows slots).filter fun row => row.isPrefixOf words

/-- Whether no row goes on where some words end. -/
def covers (slots : List Slot) (words : List (List Char)) : Bool :=
  (rows slots).all fun row => row = words || !words.isPrefixOf row

/-- Places that are asked for at the beginning of a line are found in the words that it begins with.
What is asked for behind them is found behind the words of a row. -/
theorem exists_row {slots : List Slot} (solid : ∀ slot ∈ slots, slot.solid = true)
    {words : List (List Char)} (covers : covers slots words = true) {pad head rest : List Char}
    (blanks : Blanks pad) (spaced : Spaced words head) (goes : Goes rest)
    {between : List Regex} {p a : Point} (shape : p.rest = pad ++ (head ++ rest))
    (takes : (seqs (many blank :: (slots.flatMap regexes ++ between))).Takes p a)
    (begins : ∀ o, (seqs between).Takes o a → Goes o.rest) :
    ∃ row ∈ leading slots words, ∃ more o, Spaced (words.drop row.length) more ∧
      o.rest = more ++ rest ∧ (seqs between).Takes o a := by
  obtain ⟨o, indent, takes⟩ := takes_seqs_cons.mp takes
  obtain ⟨b, front, last⟩ := takes_seqs_append.mp takes
  obtain ⟨pad', _, blanks', readsPad⟩ := takes_run.mp indent
  obtain ⟨row, listed, head', spaced', readsHead⟩ := (takes_row solid).mp front
  have same : pad ++ (head ++ rest) = pad' ++ (head' ++ b.rest) := by
    rw [← shape, readsPad.rest_eq, readsHead.rest_eq]
  have goes' := begins b last
  -- The line is now read twice, as its own words and as the words of a row.
  obtain ⟨rfl, tails⟩ := blanks_unique blanks blanks' (spaced.goes goes) (spaced'.goes goes') same
  have fits := List.all_eq_true.mp covers row listed
  rcases spaced.compare spaced' goes goes' tails with
    ⟨more, between, rfl, spaced, shape⟩ | ⟨more, between, rfl, spaced, shape⟩
  · -- A row that goes on behind the words would have to be one of them.
    have none : more = [] := by
      simpa [List.isPrefixOf_iff_prefix.mpr (List.prefix_append words more)] using fits
    subst none
    cases spaced
    refine ⟨_, List.mem_filter.mpr ⟨listed, by simp⟩, [], b, by simpa using .nil, ?_, last⟩
    simpa using shape.symm
  · exact ⟨row, List.mem_filter.mpr ⟨listed, by simp⟩, between, b, by simpa using spaced, shape, last⟩

end Slot

namespace ExportRule

/-- A rule whose pattern asks for the beginning of a line, for a front, for a name, and for what is
behind it. -/
structure Heads (rule : ExportRule) (front : List Regex) (n : NameForm) (back : List Regex) : Prop where
  regex : rule.pattern.regex =
    seqs ([.empty, .assert .lineStart] ++ (front ++ .group 1 n.regex :: back))
  names : rule.pattern.names = [("name", 1)]
  linewise : rule.linewise = true
  stops : n.Stops back
  behind : (seqs back).hasGroup 1 = false

/-- Whether the pattern of a rule is made of the given parts. -/
def heading (rule : ExportRule) (front : List Regex) (n : NameForm) (back : List Regex) : Bool :=
  rule.pattern.regex = seqs ([.empty, .assert .lineStart] ++ (front ++ .group 1 n.regex :: back)) &&
    rule.pattern.names = [("name", 1)] && rule.linewise && !(seqs back).hasGroup 1

theorem heads_ofText {source : String} {cs : List Char} {kind : SymbolKind} {visibility : Visibility}
    {front back : List Regex} {n : NameForm} (text : source = String.ofList cs) (stops : n.Stops back)
    (checked : heading ⟨.ofChars source cs, kind, visibility⟩ front n back = true) :
    Heads ⟨.ofText source, kind, visibility⟩ front n back := by
  rw [Pattern.ofText_eq text]
  simp only [heading, Bool.and_eq_true, decide_eq_true_eq, Bool.not_eq_true'] at checked
  obtain ⟨⟨⟨regex, names⟩, linewise⟩, behind⟩ := checked
  exact ⟨regex, names, linewise, stops, behind⟩

namespace Heads

variable {rule : ExportRule} {front back : List Regex} {n : NameForm} (heads : rule.Heads front n back)

include heads

theorem takes_iff {p q : Point} : rule.pattern.regex.Takes p q ↔
    Assertion.holds .lineStart p = true ∧ (seqs (front ++ group 1 n.regex :: back)).Takes p q := by
  rw [heads.regex, takes_seqs_append]
  constructor
  · rintro ⟨o, ⟨_, rfl, begins, rfl⟩, rest⟩
    exact ⟨begins, rest⟩
  · rintro ⟨begins, rest⟩
    exact ⟨p, ⟨p, rfl, begins, rfl⟩, rest⟩

theorem steady : rule.pattern.regex.steady = true := linewise_steady heads.linewise

variable {line text : List Char} (isLine : Text.IsLine line text)

include isLine

/-- In a line, a rule finds what its pattern prefers at the beginning. -/
theorem hits_eq : rule.hits text (.ofText text) =
    ((rule.pattern.regex.preferred? (.start text)).bind (rule.symbol? (.ofText text))).toList := by
  have found : rule.pattern.matchesOf text = (rule.pattern.regex.preferred? (.start text)).toList :=
    matchesOf_line (linewise_joins heads.linewise) (fun takes => (heads.takes_iff.mp takes).1) isLine
  rw [hits, found]
  cases rule.pattern.regex.preferred? (.start text) with
  | none => rfl
  | some m => cases symbol : rule.symbol? (.ofText text) m <;> simp [symbol]

theorem hits_of_not_takes
    (none : ∀ q, ¬ (seqs (front ++ group 1 n.regex :: back)).Takes (.start text) q) :
    rule.hits text (.ofText text) = [] := by
  rw [heads.hits_eq isLine, Option.toList_eq_nil_iff, Option.bind_eq_none_iff]
  intro m found
  have takes : rule.pattern.regex.Takes (.start text) m.stop := outcomes_takes (List.mem_of_head? found)
  exact absurd (heads.takes_iff.mp takes).2 (none m.stop)

/-- A rule finds nothing in a line that has no name behind its front. -/
theorem hits_eq_nil (none : ∀ a name rest, (seqs front).Takes (.start text) a → n.Names name →
    a.rest ≠ name ++ rest) : rule.hits text (.ofText text) = [] := by
  apply heads.hits_of_not_takes isLine
  intro q takes
  obtain ⟨a, first, rest⟩ := takes_seqs_append.mp takes
  obtain ⟨b, grouped, _⟩ := takes_seqs_cons.mp rest
  obtain ⟨name, named, reads⟩ := NameForm.takes_iff.mp grouped
  exact absurd reads.rest_eq (none a name b.rest first named)

/-- A rule finds nothing in a line that does not begin as its pattern can. -/
theorem hits_of_first (foreign : ∀ c ∈ text.head?,
    (seqs (front ++ group 1 n.regex :: back)).begins c = false) :
    rule.hits text (.ofText text) = [] := by
  apply heads.hits_of_not_takes isLine
  intro q takes
  obtain ⟨w, reads, some⟩ := (heads.takes_iff.mpr ⟨rfl, takes⟩).reads
  cases w with
  | nil => exact absurd rfl (some (joins_iff.mp (linewise_joins heads.linewise)).2.1)
  | cons c w =>
    have first : c ∈ text.head? := by
      have whole : text = c :: w ++ q.rest := reads.rest_eq
      simp [whole]
    have begins := takes.begins reads
    rw [foreign c first] at begins
    contradiction

/-- A rule finds the only name in a line that stands behind its front. -/
theorem hits_eq_singleton {name : List Char} {q : Point}
    (takes : (seqs (front ++ group 1 n.regex :: back)).Takes (.start text) q)
    (only : ∀ a name' rest, (seqs front).Takes (.start text) a → n.Names name' → n.Ends rest →
      a.rest = name' ++ rest → name' = name) :
    rule.hits text (.ofText text) =
      [⟨String.ofList name, rule.kind, 1, rule.visibility.isPublic name none⟩] := by
  -- There is some way to read the line, so there is a preferred one, and it ends at the only name.
  obtain ⟨m, found⟩ := exists_preferred heads.steady (heads.takes_iff.mpr ⟨rfl, takes⟩)
  have preferred := found
  rw [heads.regex, ← List.append_assoc] at preferred
  obtain ⟨a, b, name', first, named, reads, ends, group⟩ :=
    NameForm.name_of_preferred heads.stops heads.behind preferred
  obtain ⟨o, ⟨_, rfl, _, rfl⟩, first⟩ := takes_seqs_append.mp first
  obtain rfl := only a name' b.rest first named ends reads.rest_eq
  have index : rule.pattern.group? m "name" = some (a, b) := by
    rw [Pattern.group?, Pattern.groupIndex?, heads.names]
    exact group
  have plain : rule.pattern.group? m "vis" = none := by
    rw [Pattern.group?, Pattern.groupIndex?, heads.names]
    rfl
  have hits := heads.hits_eq isLine
  rw [found, Option.bind_some, symbol?, index, plain] at hits
  simp only [Option.map_some, Option.map_none, Option.toList_some, reads.charsTo_eq] at hits
  have number := line_of_line heads.linewise isLine (hits ▸ List.mem_singleton_self _)
  rw [hits]
  simpa using number

end Heads

/-- A rule whose pattern asks for some words, for a name behind them, and for what is behind it. -/
structure Keyed (rule : ExportRule) (slots : List Slot) (n : NameForm) (back : List Regex) : Prop where
  heads : rule.Heads (many blank :: slots.flatMap Slot.regexes) n back
  solid : ∀ slot ∈ slots, slot.solid = true
  clear : n.clear = true

namespace Keyed

open Text Slot

variable {rule : ExportRule} {slots : List Slot} {n : NameForm} {back : List Regex}
  (keyed : rule.Keyed slots n back) {words : List (List Char)} (covers : covers slots words = true)
  {pad head rest : List Char} (blanks : Blanks pad) (spaced : Spaced words head)
  (goes : Goes rest)

include keyed

theorem goes_of_names {name : List Char} (named : n.Names name) (behind : List Char) :
    Goes (name ++ behind) :=
  fun _ first => n.solid_first keyed.clear (named.first first)

/-- A rule finds nothing in a line that begins with none of its first words. -/
theorem hits_of_idle {keywords : List (List Char)} {line text : List Char}
    (within : ∀ row ∈ rows slots, ∃ word ∈ row.head?, word ∈ keywords ∧ '\n' ∉ word)
    (isLine : IsLine line text) (idle : firstWord line ∉ keywords) :
    rule.hits text (.ofText text) = [] := by
  obtain ⟨tail, shape, feed⟩ := isLine.exists_tail
  apply keyed.heads.hits_eq_nil isLine
  intro a name behind takes named found
  obtain ⟨o, indent, front⟩ := takes_seqs_cons.mp takes
  obtain ⟨pad, _, blanks, readsPad⟩ := takes_run.mp indent
  obtain ⟨row, listed, head, spaced, readsHead⟩ := (takes_row keyed.solid).mp front
  obtain ⟨word, first, listed', plain⟩ := within row listed
  -- A front would have put the first word of its row at the beginning of the line.
  cases spaced with
  | nil => simp at first
  | @cons word' gap more words solid some blanks' =>
    obtain rfl : word' = word := by simpa using first
    have same : line ++ tail = pad ++ (word' ++ (gap ++ (more ++ a.rest))) := by
      rw [← shape]
      simpa [Point.start] using (readsPad.trans readsHead).rest_eq
    exact idle (firstWord_of_line blanks solid some blanks' feed plain same ▸ listed')

include covers blanks spaced goes

/-- A name that a rule finds stands behind a row of its words. -/
theorem exists_row_of_front {text tail name behind : List Char} {a : Point}
    (shape : text = pad ++ (head ++ rest) ++ tail) (feed : ∀ c ∈ tail.head?, c = '\n')
    (takes : (seqs (many blank :: slots.flatMap regexes)).Takes (.start text) a)
    (named : n.Names name) (found : a.rest = name ++ behind) :
    ∃ row ∈ leading slots words, ∃ more, Spaced (words.drop row.length) more ∧
      a.rest = more ++ (rest ++ tail) := by
  rw [← List.append_nil (slots.flatMap regexes)] at takes
  have begins : ∀ o, (seqs []).Takes o a → Goes o.rest := by
    rintro o rfl
    exact found ▸ keyed.goes_of_names named behind
  have further : Goes (rest ++ tail) := head_of_tail (by decide) feed goes
  obtain ⟨row, listed, more, o, spaced', rest', rfl⟩ := exists_row keyed.solid covers blanks spaced
    further (p := .start text) (by simp [Point.start, shape]) takes begins
  exact ⟨row, listed, more, spaced', rest'⟩

variable {text : List Char} (isLine : IsLine (pad ++ (head ++ rest)) text)

include isLine

/-- A rule finds nothing in a line that begins with other words. -/
theorem hits_of_foreign (foreign : leading slots words = []) : rule.hits text (.ofText text) = [] := by
  obtain ⟨tail, shape, feed⟩ := isLine.exists_tail
  apply keyed.heads.hits_eq_nil isLine
  intro a name behind takes named found
  obtain ⟨row, listed, _⟩ :=
    keyed.exists_row_of_front covers blanks spaced goes shape feed takes named found
  simp [foreign] at listed

/-- A rule finds the name behind its words. -/
theorem hits_of_words (own : leading slots words = [words]) {name behind : List Char}
    (cut : rest = name ++ behind) (named : n.Names name) (ends : n.Ends behind)
    (fits : ∀ tail o, o.rest = behind ++ tail → ∃ q, (seqs back).Takes o q) :
    rule.hits text (.ofText text) =
      [⟨String.ofList name, rule.kind, 1, rule.visibility.isPublic name none⟩] := by
  obtain ⟨tail, shape, feed⟩ := isLine.exists_tail
  have listed : words ∈ rows slots :=
    (List.mem_filter.mp (own ▸ List.mem_singleton_self words)).1
  have whole : (Point.start text).rest = pad ++ (head ++ (name ++ (behind ++ tail))) := by
    simp [Point.start, shape, cut]
  obtain ⟨o, readsPad, rest₁⟩ := Point.exists_reads whole
  obtain ⟨a, readsHead, rest₂⟩ := Point.exists_reads rest₁
  obtain ⟨b, readsName, rest₃⟩ := Point.exists_reads rest₂
  obtain ⟨q, last⟩ := fits tail b rest₃
  have takes : (seqs ((many blank :: slots.flatMap regexes) ++ group 1 n.regex :: back)).Takes
      (.start text) q := by
    refine takes_seqs_append.mpr ⟨a, takes_seqs_cons.mpr ⟨o, ?_, ?_⟩, takes_seqs_cons.mpr ⟨b, ?_, last⟩⟩
    · exact takes_run.mpr ⟨pad, Nat.zero_le _, blanks, readsPad⟩
    · exact (takes_row keyed.solid).mpr ⟨words, listed, head, spaced, readsHead⟩
    · exact NameForm.takes_iff.mpr ⟨name, named, readsName⟩
  -- In every other reading the name stands behind the same words, as there is no other row.
  apply keyed.heads.hits_eq_singleton isLine takes
  intro a name' rest' takes named' ends' found
  obtain ⟨row, chosen, more, spaced', behind'⟩ :=
    keyed.exists_row_of_front covers blanks spaced goes shape feed takes named' found
  rw [own, List.mem_singleton] at chosen
  rw [chosen, List.drop_length] at spaced'
  cases spaced'
  rw [found, cut, List.nil_append, List.append_assoc] at behind'
  have ends := head_of_tail (n.feed_ends keyed.clear) feed ends
  exact (NameForm.eq_of_names named' named ends' ends behind').1

end Keyed

end ExportRule

end Ripple
