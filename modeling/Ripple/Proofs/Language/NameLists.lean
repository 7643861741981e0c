import Ripple.Proofs.Language.ExportNames
import Ripple.Proofs.Language.Keywords
import Ripple.Proofs.Language.Rows

/-!
Lists of names at the beginning of a line. A list is read to its end: as long as a comma and a name
follow, with whatever blanks, they belong to the list. What is read is cut at its commas into the
names.
-/

namespace Ripple.ExportGroup

open Regex Rounds Text Ripple.Language Language.Part

/-- Names begin with a letter or an underscore. -/
def nameForm : NameForm := ⟨letter, .word, 0⟩

theorem identifier_of_names {name : List Char} (named : nameForm.Names name) :
    IsIdentifier false name := by
  cases name with
  | nil => exact named.elim
  | cons c w =>
    have letters : ∀ d, d ∈ c :: w → letter.mem d = true ∨ CharSet.word.mem d = true := by
      intro d listed
      rcases List.mem_cons.mp listed with rfl | listed
      · exact .inl named.1
      · exact .inr (named.2.2 d listed)
    refine ⟨by simp, fun d listed => ?_⟩
    rcases letters d listed with member | member
    · exact CharSet.isNameChar_of_names (by decide) member
    · exact CharSet.isNameChar_of_names (by decide) member

/-- A further name of a list, with the blanks around the comma before it. -/
structure Item where
  before : List Char
  behind : List Char
  name : List Char
  blanksBefore : Blanks before
  blanksBehind : Blanks behind
  named : nameForm.Names name

namespace Item

def chars (i : Item) : List Char := i.before ++ ',' :: (i.behind ++ i.name)

theorem single (i : Item) : '\n' ∉ i.chars := by
  have noName := i.named.not_mem (c := '\n') (by decide) (by decide)
  have noBefore := i.blanksBefore.not_mem (c := '\n') (by decide)
  have noBehind := i.blanksBehind.not_mem (c := '\n') (by decide)
  simp [chars, noName, noBefore, noBehind]

end Item

/-- Names between commas. -/
structure NameList where
  first : List Char
  others : List Item
  named : nameForm.Names first

namespace NameList

def chars (l : NameList) : List Char := l.first ++ l.others.flatMap Item.chars

def names (l : NameList) : List (List Char) := l.first :: l.others.map Item.name

theorem single (l : NameList) : '\n' ∉ l.chars := by
  rw [chars, List.mem_append, not_or]
  refine ⟨l.named.not_mem (by decide) (by decide), fun listed => ?_⟩
  obtain ⟨i, _, member⟩ := List.mem_flatMap.mp listed
  exact i.single member

end NameList

/-- A text goes on neither with a name nor with a list of names. -/
structure EndsList (rest : List Char) : Prop where
  word : nameForm.Ends rest
  item : ∀ (i : Item) (more : List Char), rest ≠ i.chars ++ more

def round : Regex := seqs ([many blank, .char ',', many blank] ++ nameRegex)

/-- A name is read to its end. -/
theorem reads_name {m n : Match} (picks : (seqs nameRegex).Picks m n) {name more : List Char}
    (shape : m.stop.rest = name ++ more) (named : nameForm.Names name) (ends : nameForm.Ends more) :
    m.stop.Reads name n.stop := by
  obtain ⟨name', named', reads⟩ := (NameForm.takes_iff (n := nameForm)).mp picks.takes
  obtain ⟨o, _, run⟩ := @picks_seqs_append [.set letter] [many .word] _ _ picks
  have same : name ++ more = name' ++ n.stop.rest := shape.symm.trans reads.rest_eq
  obtain ⟨rfl, _⟩ := NameForm.eq_of_names named named' ends (picks_run_ends run) same
  exact reads

theorem reads_comma {p q : Point} (takes : (seqs [many blank, .char ',', many blank]).Takes p q) :
    ∃ pad pad', Blanks pad ∧ Blanks pad' ∧ p.Reads (pad ++ ',' :: pad') q := by
  obtain ⟨a, before, further⟩ := takes_seqs_cons.mp takes
  obtain ⟨b, comma, behind⟩ := takes_seqs_cons.mp further
  obtain ⟨pad, _, blanks, reads⟩ := takes_run.mp before
  obtain ⟨pad', _, blanks', reads'⟩ := takes_run.mp behind
  exact ⟨pad, pad', blanks, blanks', reads.trans (comma.trans reads')⟩

/-- No blank stands where a name begins. -/
theorem goes_name {name : List Char} (named : nameForm.Names name) (more : List Char) :
    Goes (name ++ more) :=
  fun _ first => nameForm.solid_first (by decide) (named.first first)

/-- Behind a comma, the next name is read to its end. -/
theorem reads_item {m n : Match} (picks : round.Picks m n) {i : Item} {more : List Char}
    (shape : m.stop.rest = i.chars ++ more) (ends : nameForm.Ends more) :
    m.stop.Reads i.chars n.stop := by
  obtain ⟨o, separator, name⟩ := picks_seqs_append picks
  obtain ⟨pad, pad', blanks, blanks', reads⟩ := reads_comma (outcomes_takes separator)
  obtain ⟨name', named', readsName⟩ := (NameForm.takes_iff (n := nameForm)).mp name.takes
  have same : i.before ++ ',' :: (i.behind ++ (i.name ++ more)) =
      pad ++ ',' :: (pad' ++ o.stop.rest) := by
    have both := shape.symm.trans reads.rest_eq
    simpa [Item.chars] using both
  -- The comma tells the blanks before it, and the name those behind it.
  obtain ⟨rfl, further⟩ := cut_unique (i.blanksBefore.not_mem (by decide))
    (blanks.not_mem (by decide)) same
  have goes : Goes o.stop.rest := by
    rw [readsName.rest_eq]
    exact goes_name named' _
  obtain ⟨rfl, rest⟩ := blanks_unique blanks' i.blanksBehind goes (goes_name i.named more) further
  have whole := reads.trans (reads_name name rest i.named ends)
  simpa [Item.chars] using whole

/-- What may follow a name of a list ends the name. -/
theorem ends_items {rest : List Char} (ends : nameForm.Ends rest) (items : List Item) :
    nameForm.Ends (items.flatMap Item.chars ++ rest) := by
  cases items with
  | nil => exact ends
  | cons i items =>
    intro c first
    cases shape : i.before with
    | nil =>
      obtain rfl : ',' = c := by simpa [Item.chars, shape] using first
      decide
    | cons d pad =>
      obtain rfl : d = c := by simpa [Item.chars, shape] using first
      have blank : blank.mem d = true := i.blanksBefore d (by simp [shape])
      rcases blank_mem_iff.mp blank with rfl | rfl <;> decide

theorem accepts_item (i : Item) : Accepts [round] i.chars := by
  have name : Accepts nameRegex i.name := fun _ _ reads =>
    (NameForm.takes_iff (n := nameForm)).mpr ⟨_, i.named, reads⟩
  have shape : i.chars = i.before ++ ([','] ++ (i.behind ++ i.name)) := by simp [Item.chars]
  rw [shape]
  exact (Accepts.run (Nat.zero_le _) i.blanksBefore).append ((Accepts.chars [',']).append
    ((Accepts.run (Nat.zero_le _) i.blanksBehind).append name))

/-- Where no further name follows, a list has been read that ends there. -/
theorem reads_rounds {k : Nat} {m n : Match} (rounds : Iterated round.Picks k m n)
    (stops : round.outcomes n = []) {items : List Item} {rest : List Char} (ends : EndsList rest)
    (shape : m.stop.rest = items.flatMap Item.chars ++ rest) :
    m.stop.Reads (items.flatMap Item.chars) n.stop := by
  induction k generalizing m items with
  | zero =>
    cases rounds
    cases items with
    | nil => exact rfl
    | cons i items =>
      -- There is a way along the next name, so the list would go on.
      obtain ⟨q, reads, _⟩ := Point.exists_reads (w := i.chars) (by simpa using shape)
      have way : round.Takes n.stop q := accepts_item i n.stop q reads
      obtain ⟨o, member, _⟩ := exists_outcome (by decide) way
      rw [stops] at member
      cases member
  | succ k ih =>
    obtain ⟨o, here, rounds⟩ := rounds
    cases items with
    | nil =>
      -- A further round reads a comma and a name, with which the rest does not begin.
      obtain ⟨a, separator, name⟩ := picks_seqs_append here
      obtain ⟨pad, pad', blanks, blanks', reads⟩ := reads_comma (outcomes_takes separator)
      obtain ⟨name', named', readsName⟩ := (NameForm.takes_iff (n := nameForm)).mp name.takes
      have whole := shape.symm.trans (reads.trans readsName).rest_eq
      exact absurd (by simpa [Item.chars] using whole)
        (ends.item ⟨pad, pad', name', blanks, blanks', named'⟩ o.stop.rest)
    | cons i items =>
      have first : m.stop.rest = i.chars ++ (items.flatMap Item.chars ++ rest) := by
        simpa using shape
      have reads := reads_item here first (ends_items ends.word items)
      have further : o.stop.rest = items.flatMap Item.chars ++ rest :=
        List.append_cancel_left (reads.rest_eq.symm.trans first)
      exact reads.trans (ih rounds further)

/-- A list is read to its end. -/
theorem reads_list (l : NameList) {rest : List Char} (ends : EndsList rest) {m n : Match}
    (picks : nameListRegex.Picks m n) (shape : m.stop.rest = l.chars ++ rest) :
    m.stop.Reads l.chars n.stop := by
  obtain ⟨o, name, further⟩ := picks_seqs_append_of_passable picks (optional_ne_nil round none)
  have first : m.stop.rest = l.first ++ (l.others.flatMap Item.chars ++ rest) := by
    simpa [NameList.chars] using shape
  have reads := reads_name name first l.named (ends_items ends.word l.others)
  obtain ⟨k, rounds⟩ := picks_loop further
  have stops := picks_rep_ends (by decide) further
  have behind : o.stop.rest = l.others.flatMap Item.chars ++ rest :=
    List.append_cancel_left (reads.rest_eq.symm.trans first)
  exact reads.trans (reads_rounds rounds stops ends behind)

/-- The pieces between the commas of a list are its names with blanks around them. -/
theorem trim_pieces {pad name : List Char} (blanks : Blanks pad) (named : nameForm.Names name)
    (items : List Item) :
    (splitOn ',' (pad ++ (name ++ items.flatMap Item.chars))).map trim =
      name :: items.map Item.name := by
  induction items generalizing pad name with
  | nil =>
    have identifier := identifier_of_names named
    rw [List.flatMap_nil, splitOn,
      splitBy_of_fail (ne_comma_of_padded blanks Blanks.nil identifier), List.map_singleton,
      trim_name blanks Blanks.nil identifier, List.map_nil]
  | cons i items ih =>
    have identifier := identifier_of_names named
    -- The blanks behind the comma belong to the next piece, for which the blanks are generalised.
    have cut : splitOn ',' ((pad ++ (name ++ i.before)) ++
        ',' :: (i.behind ++ (i.name ++ items.flatMap Item.chars))) =
        (pad ++ (name ++ i.before)) ::
          splitOn ',' (i.behind ++ (i.name ++ items.flatMap Item.chars)) :=
      splitBy_append (ne_comma_of_padded blanks i.blanksBefore identifier) (by decide)
    have order : pad ++ (name ++ (i :: items).flatMap Item.chars) = (pad ++ (name ++ i.before)) ++
        ',' :: (i.behind ++ (i.name ++ items.flatMap Item.chars)) := by
      simp [Item.chars]
    rw [order, cut, List.map_cons, trim_name blanks i.blanksBefore identifier,
      ih i.blanksBehind i.named, List.map_cons]

theorem entryPattern_regex : Go.entryPattern.regex =
    seqs ([.assert .textStart, many blank] ++ group 1 nameListRegex :: []) := by
  rw [Go.entryPattern, Pattern.ofText_eq rfl]
  rfl

theorem entryPattern_group (m : Match) : Go.entryPattern.group? m "names" = m.group? 1 := by
  have index : Go.entryPattern.groupIndex? "names" = some 1 := by
    rw [Go.entryPattern, Pattern.ofText_eq rfl]
    rfl
  rw [Pattern.group?, index]
  rfl

theorem accepts_list (l : NameList) : Accepts [nameListRegex] l.chars := by
  intro p q reads
  obtain ⟨o, first, others⟩ := Point.reads_append.mp reads
  refine takes_seqs_append.mpr ⟨o, (NameForm.takes_iff (n := nameForm)).mpr ⟨_, l.named, first⟩, ?_⟩
  have rounds : ∀ {items : List Item} {p q : Point}, p.Reads (items.flatMap Item.chars) q →
      Iterated round.Takes items.length p q := by
    intro items
    induction items with
    | nil => exact fun reads => reads
    | cons i items ih =>
      intro p q reads
      rw [List.flatMap_cons] at reads
      obtain ⟨o, here, further⟩ := Point.reads_append.mp reads
      exact ⟨o, accepts_item i p o here, ih further⟩
  exact takes_loop.mpr ⟨_, rounds others⟩

/-- The names of a list at the beginning of a line, behind a tab. -/
theorem entryNames_list (l : NameList) {rest : List Char} (ends : EndsList rest) :
    entryNames Go.entryPattern ('\t' :: (l.chars ++ rest)) = some (1, l.names) := by
  have steady : Go.entryPattern.regex.steady = true := by
    rw [entryPattern_regex]
    decide
  have tab : Blanks ['\t'] := by simp [Blanks, blank_mem_iff]
  have goes : Goes (l.chars ++ rest) := by
    rw [NameList.chars, List.append_assoc]
    exact goes_name l.named _
  -- The list can be read behind the tab, so there is a preferred way.
  obtain ⟨a, tabbed, restA⟩ :=
    Point.exists_reads (p := .start ('\t' :: (l.chars ++ rest))) (w := ['\t']) rfl
  obtain ⟨b, listed, _⟩ := Point.exists_reads restA
  have takes : Go.entryPattern.regex.Takes (.start ('\t' :: (l.chars ++ rest))) b := by
    rw [entryPattern_regex]
    refine takes_seqs_append.mpr ⟨a, takes_seqs_cons.mpr ⟨_, ⟨rfl, rfl⟩, ?_⟩,
      accepts_list l a b listed⟩
    exact takes_run.mpr ⟨['\t'], Nat.zero_le _, tab, tabbed⟩
  obtain ⟨m, preferred⟩ := exists_preferred steady takes
  have search := search?_of_preferred steady (Point.start_in _) preferred
  rw [entryPattern_regex] at preferred
  obtain ⟨o, front, grouped⟩ := picks_seqs_append preferred
  obtain ⟨e, body, rfl⟩ := picks_group grouped
  -- The blanks in front of the list are the tab alone.
  obtain ⟨c, ⟨_, rfl⟩, run⟩ := takes_seqs_cons.mp (outcomes_takes front)
  obtain ⟨pad, _, blanks, padding⟩ := takes_run.mp run
  obtain ⟨d, name, _⟩ := takes_seqs_append.mp body.takes
  obtain ⟨name, named, readsName⟩ := (NameForm.takes_iff (n := nameForm)).mp name
  have letter : Goes o.stop.rest := by
    rw [show o.stop.rest = name ++ d.rest from readsName.rest_eq]
    exact goes_name named _
  obtain ⟨rfl, rest⟩ := blanks_unique blanks tab letter goes padding.rest_eq.symm
  have reads : o.stop.Reads l.chars e.stop := reads_list l ends (m := o.enter 1) body rest
  have offset : o.stop.offset = 1 := padding.offset_eq
  have group : (e.leave 1).group? 1 = some (o.stop, e.stop) := (remembers_group rfl body.mem).group?
  have pieces := trim_pieces Blanks.nil l.named l.others
  rw [List.nil_append] at pieces
  rw [entryNames, search, Option.bind_some, entryPattern_group, group, Option.map_some]
  simp only [offset, reads.charsTo_eq, NameList.chars, pieces, NameList.names]

theorem entryNames_feed : entryNames Go.entryPattern ['\n'] = none := by
  rw [Go.entryPattern, Pattern.ofText_eq rfl]
  rfl

/-- A line feed ends a list if the rest of the line does. -/
theorem EndsList.feed {rest : List Char} (ends : EndsList rest) (single : '\n' ∉ rest) :
    EndsList (rest ++ ['\n']) where
  word := by
    cases rest with
    | nil =>
      rintro _ ⟨⟩
      decide
    | cons c rest => exact ends.word
  item i more same := by
    obtain ⟨y, inside, _⟩ := split_behind i.single same.symm
    exact ends.item i y inside

/-- A sign of assignment ends a list. -/
theorem endsList_assignment (more : List Char) : EndsList (' ' :: '=' :: more) where
  word := by
    rintro _ ⟨⟩
    decide
  item i behind same := by
    have goes : Goes ('=' :: more) ∧ Goes (',' :: (i.behind ++ (i.name ++ behind))) := by
      constructor
      · rintro _ ⟨⟩
        decide
      · rintro _ ⟨⟩
        decide
    have cut : [' '] ++ '=' :: more = i.before ++ ',' :: (i.behind ++ (i.name ++ behind)) := by
      simpa [Item.chars] using same
    obtain ⟨_, comma⟩ := blanks_unique Blanks.space i.blanksBefore goes.1 goes.2 cut
    cases comma

end Ripple.ExportGroup
