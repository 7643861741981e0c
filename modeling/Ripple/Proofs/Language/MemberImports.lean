import Ripple.Proofs.Language.ImportLists
import Ripple.Proofs.Language.NamedImports

/-!
Imports of members of a package, in any layout. The form for such an import reads the list of members
up to its first newline and no further, with or without brackets around the list.
-/

namespace Ripple.Language

open Regex Language.Part

/-- Behind its first entry a list goes on with what closes it, or with a comma and the other
entries. -/
theorem listing_append {isName : Char → Bool} (first : Entry isName) (others : List (Entry isName))
    {closing : List Char} (closes : ∀ d ∈ closing, d = ')') :
    ∃ tail, listing first others ++ closing = first.before ++ (first.name ++ (first.behind ++ tail)) ∧
      (∀ d ∈ tail.head?, d = ',' ∨ d = ')') ∧
      (others = [] ∧ tail = closing ∨
        ∃ next more, others = next :: more ∧ tail = ',' :: (listing next more ++ closing)) := by
  cases others with
  | nil =>
    refine ⟨closing, by simp [listing], ?_, .inl ⟨rfl, rfl⟩⟩
    exact fun d head => .inr (closes d (List.mem_of_mem_head? head))
  | cons next more =>
    refine ⟨_, by simp [listing], ?_, .inr ⟨next, more, rfl, rfl⟩⟩
    simp

/-- The names of a list that stand before its first newline. -/
def firstLine {isName : Char → Bool} : List (Entry isName) → List (List Char)
  | [] => []
  | e :: es => if '\n' ∈ e.before then [] else e.name :: if '\n' ∈ e.behind then [] else firstLine es

theorem firstLine_of_single {isName : Char → Bool} {first : Entry isName}
    {others : List (Entry isName)} (single : '\n' ∉ listing first others) :
    firstLine (first :: others) = (first :: others).map Entry.name := by
  induction others generalizing first with
  | nil =>
    simp only [listing, List.mem_append, not_or] at single
    simp [firstLine, single]
  | cons next others ih =>
    simp only [listing, List.mem_append, List.mem_cons, not_or] at single
    obtain ⟨before, _, behind, _, later⟩ := single
    rw [firstLine, if_neg before, if_neg behind, ih later]
    rfl

theorem isWhite_iff {c : Char} : isWhite c = true ↔ blank.mem c = true ∨ c = '\n' := by
  rw [blank_mem_iff]
  simp [isWhite, or_assoc]

theorem isWhite_of_blank {c : Char} (member : blank.mem c = true) : isWhite c = true :=
  isWhite_iff.mpr (.inl member)

theorem isWhite_eq_false_of_isWord {c : Char} (word : Unicode.isWord c = true) :
    isWhite c = false := by
  rw [Bool.eq_false_iff]
  intro white
  rcases isWhite_iff.mp white with blank | rfl
  · rcases blank_mem_iff.mp blank with rfl | rfl <;> exact absurd word (by decide)
  · exact absurd word (by decide)

theorem isWord_eq_false_of_isWhite {c : Char} (white : isWhite c = true) :
    Unicode.isWord c = false := by
  rw [Bool.eq_false_iff]
  intro word
  rw [isWhite_eq_false_of_isWord word] at white
  contradiction

namespace Python

theorem dotted_mem_iff {c : Char} : dotted.mem c = true ↔ Unicode.isWord c = true ∨ c = '.' := by
  refine ⟨dotted_mem, ?_⟩
  rintro (word | rfl)
  · exact CharSet.mem_unions.mpr ⟨.word, List.mem_cons_self, word⟩
  · rfl

def opening (bracketed : Bool) : List Char := if bracketed then ['('] else []

def closing (bracketed : Bool) : List Char := if bracketed then [')'] else []

/-- An import of members of a package, up to its list. -/
def memberHead (path : List Char) (bracketed : Bool) : List Char :=
  "from".toList ++ ([' '] ++ (path ++ ([' '] ++ ("import".toList ++ ([' '] ++ opening bracketed)))))

def memberImport (path : List Char) (bracketed : Bool) (first : Entry Unicode.isWord)
    (others : List (Entry Unicode.isWord)) : String :=
  String.ofList (memberHead path bracketed ++ (listing first others ++ closing bracketed))

/-- A word and what stands beside it, with white space between them, are both behind an entry. -/
theorem behind_entry (e : Entry Unicode.isWord) {tail x gap rest : List Char} {k c : Char}
    (ends : ∀ d ∈ tail.head?, d = ',' ∨ d = ')') (word : Unicode.isWord k = true) (some : gap ≠ [])
    (white : ∀ d ∈ gap, isWhite d = true) (beside : dotted.mem c = true)
    (same : e.before ++ (e.name ++ (e.behind ++ tail)) = x ++ k :: (gap ++ c :: rest)) :
    ∃ y, tail = y ++ k :: (gap ++ c :: rest) := by
  have solid : ∀ {u : List Char}, (∀ d ∈ u, isWhite d = true) → k ∉ u := by
    intro u white member
    rw [isWord_eq_false_of_isWhite (white k member)] at word
    contradiction
  have passed : ∀ {z : List Char}, e.behind ++ tail = z ++ k :: (gap ++ c :: rest) →
      ∃ y, tail = y ++ k :: (gap ++ c :: rest) := by
    intro z same
    obtain ⟨y, _, found⟩ := Text.split_behind (solid e.white_behind) same
    exact ⟨y, found⟩
  obtain ⟨y, _, found⟩ := Text.split_behind (solid e.white_before) same
  -- The word stands behind the name, or is a part of it.
  rcases List.append_eq_append_iff.mp found with ⟨z, _, found⟩ | ⟨z, inside, found⟩
  · exact passed found
  · cases z with
    | nil => exact passed (z := []) found.symm
    | cons d z =>
      have further : gap ++ c :: rest = z ++ (e.behind ++ tail) := (List.cons.inj found).2
      cases z with
      | nil =>
        -- The name ends with the word, so that what stands beside it would end the entry.
        have unwhite : isWhite c = false := by
          rcases dotted_mem beside with word | rfl
          · exact isWhite_eq_false_of_isWord word
          · rfl
        have outside : ∀ d ∈ tail.head?, isWhite d = false := by
          intro d head
          rcases ends d head with rfl | rfl <;> rfl
        have split := Text.run_unique white e.white_behind (by simpa using unwhite) outside further
        rcases ends c (by simp [← split.2]) with rfl | rfl <;> exact absurd beside (by decide)
      | cons g' z =>
        obtain ⟨g, gap, rfl⟩ := List.exists_cons_of_ne_nil some
        obtain rfl : g = g' := (List.cons.inj further).1
        have letter := e.members g (by simp [inside])
        rw [isWord_eq_false_of_isWhite (white g List.mem_cons_self)] at letter
        contradiction

/-- No two words of a list stand side by side. -/
theorem not_side_by_side {first : Entry Unicode.isWord} {others : List (Entry Unicode.isWord)}
    {closing x gap rest : List Char} {k c : Char} (closes : ∀ d ∈ closing, d = ')')
    (word : Unicode.isWord k = true) (some : gap ≠ []) (white : ∀ d ∈ gap, isWhite d = true)
    (beside : dotted.mem c = true) :
    listing first others ++ closing ≠ x ++ k :: (gap ++ c :: rest) := by
  intro same
  obtain ⟨tail, shape, ends, kinds⟩ := listing_append first others closes
  rw [shape] at same
  -- Behind an entry a comma or the closing bracket comes first, and neither is part of a word.
  obtain ⟨y, later⟩ := behind_entry first ends word some white beside same
  rcases kinds with ⟨_, rfl⟩ | ⟨next, more, rfl, rfl⟩
  · rw [closes k (by simp [later])] at word
    exact absurd word (by decide)
  · cases y with
    | nil =>
      rw [← (List.cons.inj later).1] at word
      exact absurd word (by decide)
    | cons d y => exact not_side_by_side closes word some white beside (List.cons.inj later).2
termination_by others.length

theorem head?_behind (e : Entry Unicode.isWord) {tail : List Char}
    (ends : ∀ d ∈ tail.head?, d = ',' ∨ d = ')') :
    ∀ d ∈ (e.behind ++ tail).head?, Unicode.isWord d = false := by
  intro d head
  cases shape : e.behind with
  | nil =>
    rw [shape] at head
    rcases ends d head with rfl | rfl <;> decide
  | cons c behind =>
    obtain rfl : c = d := by simpa [shape] using head
    exact isWord_eq_false_of_isWhite (e.white_behind c (by simp [shape]))

/-- The parts of an entry are found in one way. -/
theorem entry_unique (e : Entry Unicode.isWord) {tail pad w rest : List Char}
    (ends : ∀ d ∈ tail.head?, d = ',' ∨ d = ')') (white : ∀ d ∈ pad, isWhite d = true)
    (some : w ≠ []) (word : ∀ d ∈ w, Unicode.isWord d = true)
    (stops : ∀ d ∈ rest.head?, Unicode.isWord d = false)
    (same : e.before ++ (e.name ++ (e.behind ++ tail)) = pad ++ (w ++ rest)) :
    pad = e.before ∧ w = e.name ∧ rest = e.behind ++ tail := by
  -- White space ends where a word begins, and a word ends where the entry goes on.
  have begins : ∀ {v r : List Char}, v ≠ [] → (∀ d ∈ v, Unicode.isWord d = true) →
      ∀ d ∈ (v ++ r).head?, isWhite d = false := by
    intro v r some word d head
    obtain ⟨c, v, rfl⟩ := List.exists_cons_of_ne_nil some
    obtain rfl : c = d := by simpa using head
    exact isWhite_eq_false_of_isWord (word c List.mem_cons_self)
  obtain ⟨rfl, named⟩ := Text.run_unique white e.white_before (begins some word)
    (begins e.nonempty e.members) same.symm
  obtain ⟨rfl, behind⟩ := Text.run_unique word e.members stops (head?_behind e ends) named
  exact ⟨rfl, rfl, behind⟩

/-- One round of the form for members: a member with the comma behind it. -/
def memberRound : Regex := seqs ([several .word, asName] ++ comma)

/-- A round reads the name of an entry and the comma behind the entry. -/
theorem round_unique (e : Entry Unicode.isWord) {tail pad : List Char}
    (ends : ∀ d ∈ tail.head?, d = ',' ∨ d = ')') (white : ∀ d ∈ pad, isWhite d = true) {b o : Point}
    (round : memberRound.Takes b o)
    (same : e.before ++ (e.name ++ (e.behind ++ tail)) = pad ++ b.rest) :
    pad = e.before ∧ (∀ d ∈ e.behind, blank.mem d = true) ∧
      ∃ v, (∀ d ∈ v, blank.mem d = true) ∧ tail = ',' :: (v ++ o.rest) := by
  obtain ⟨g, ⟨f, words, renamed⟩, separator⟩ := takes_seqs_append.mp round
  obtain ⟨w, some, word, readsW⟩ := takes_several words
  obtain ⟨u, v, blanksU, blanksV, readsComma⟩ := reads_comma separator
  rw [readsW.rest_eq] at same
  have outside : ∀ d ∈ tail.head?, isWhite d = false := by
    intro d head
    rcases ends d head with rfl | rfl <;> rfl
  have stops : ∀ {x r : List Char} {c : Char}, (∀ d ∈ x, blank.mem d = true) →
      x ≠ [] ∨ Unicode.isWord c = false → ∀ d ∈ (x ++ c :: r).head?, Unicode.isWord d = false := by
    intro x r c blanks other d head
    cases x with
    | nil =>
      obtain rfl : c = d := by simpa using head
      exact other.resolve_left (by simp)
    | cons b x =>
      obtain rfl : b = d := by simpa using head
      exact isWord_eq_false_of_isWhite (isWhite_of_blank (blanks b List.mem_cons_self))
  rcases takes_optional.mp renamed with rfl | ⟨h, gaps, i, letter, _⟩
  · rw [readsComma.rest_eq, List.append_assoc, List.cons_append] at same
    obtain ⟨before, _, behind⟩ :=
      entry_unique e ends white some word (stops blanksU (.inr (by decide))) same
    obtain ⟨rfl, shape⟩ := Text.run_unique (fun d member => isWhite_of_blank (blanksU d member))
      e.white_behind (by rintro d ⟨⟩; rfl) outside behind
    exact ⟨before, blanksU, v, blanksV, shape.symm⟩
  · -- No other word than the name stands in an entry.
    obtain ⟨gap, someGap, blanksGap, readsGap⟩ := takes_several gaps
    have further : f.rest = gap ++ 'a' :: i.rest := readsGap.rest_eq.trans (congrArg _ letter.rest_eq)
    rw [further] at same
    obtain ⟨_, _, behind⟩ := entry_unique e ends white some word (stops blanksGap (.inl someGap)) same
    obtain ⟨_, shape⟩ := Text.run_unique (fun d member => isWhite_of_blank (blanksGap d member))
      e.white_behind (by rintro d ⟨⟩; rfl) outside behind
    rcases ends 'a' (by simp [← shape]) with other | other <;> exact absurd other (by decide)

/-- The form for members reads a list from its beginning, and finds only names of its first line. -/
theorem mem_firstLine_of_rounds {closing : List Char} (closes : ∀ d ∈ closing, d = ')')
    {first : Entry Unicode.isWord} {others : List (Entry Unicode.isWord)} {name pad : List Char}
    {b c d : Point} (same : listing first others ++ closing = pad ++ b.rest)
    (blanks : ∀ d ∈ pad, blank.mem d = true) (rounds : (loop memberRound).Takes b c)
    (reads : c.Reads name d) (ends : ∀ e ∈ d.rest.head?, Unicode.isWord e = false)
    (some : name ≠ []) (word : ∀ d ∈ name, Unicode.isWord d = true) :
    name ∈ firstLine (first :: others) := by
  have flat : ∀ {u : List Char}, (∀ d ∈ u, blank.mem d = true) → '\n' ∉ u :=
    fun blanks member => absurd (blanks _ member) (by decide)
  obtain ⟨k, iterated⟩ := takes_loop.mp rounds
  clear rounds
  -- Each round passes one entry; the blanks read before it are what keeps it on the first line.
  induction k generalizing first others pad b with
  | zero =>
    cases iterated
    obtain ⟨tail, shape, closed, kinds⟩ := listing_append first others closes
    rw [shape, reads.rest_eq] at same
    obtain ⟨rfl, rfl, _⟩ := entry_unique first closed
      (fun d member => isWhite_of_blank (blanks d member)) some word ends same
    rw [firstLine, if_neg (flat blanks)]
    exact List.mem_cons_self
  | succ k ih =>
    obtain ⟨o, round, later⟩ := iterated
    obtain ⟨tail, shape, closed, kinds⟩ := listing_append first others closes
    rw [shape] at same
    obtain ⟨rfl, behind, v, blanksV, rfl⟩ := round_unique first closed
      (fun d member => isWhite_of_blank (blanks d member)) round same
    rw [firstLine, if_neg (flat blanks), if_neg (flat behind)]
    rcases kinds with ⟨_, rfl⟩ | ⟨next, more, rfl, tails⟩
    · exact absurd (closes ',' List.mem_cons_self) (by decide)
    · exact List.mem_cons_of_mem _ (ih (List.cons.inj tails).2.symm blanksV later)

/-- The names of the first line are found by the form for members. -/
theorem rounds_of_mem_firstLine {closing : List Char} (closes : ∀ d ∈ closing, d = ')')
    {first : Entry Unicode.isWord} {others : List (Entry Unicode.isWord)} {name : List Char}
    (member : name ∈ firstLine (first :: others)) {a : Point}
    (rest : a.rest = listing first others ++ closing) :
    ∃ pad b c d, a.Reads pad b ∧ (∀ d ∈ pad, blank.mem d = true) ∧ (loop memberRound).Takes b c ∧
      c.Reads name d ∧ ∀ e ∈ d.rest.head?, Unicode.isWord e = false := by
  -- White space without a line end is blank.
  have blank_of : ∀ {u : List Char}, (∀ d ∈ u, isWhite d = true) → '\n' ∉ u →
      ∀ d ∈ u, blank.mem d = true := by
    intro u white flat d listed
    refine (isWhite_iff.mp (white d listed)).resolve_right ?_
    rintro rfl
    exact flat listed
  obtain ⟨tail, shape, ends, kinds⟩ := listing_append first others closes
  rw [shape] at rest
  obtain ⟨b, readsPad, rest⟩ := Point.exists_reads rest
  obtain ⟨f, readsName, rest⟩ := Point.exists_reads rest
  rw [firstLine] at member
  split at member
  next => simp at member
  next flat =>
    have before := blank_of first.white_before flat
    rcases List.mem_cons.mp member with rfl | member
    · refine ⟨_, b, b, f, readsPad, before, takes_loop.mpr ⟨0, rfl⟩, readsName, ?_⟩
      rw [rest]
      exact head?_behind first ends
    split at member
    next => simp at member
    next flat' =>
      rcases kinds with ⟨rfl, _⟩ | ⟨next, more, rfl, rfl⟩
      · simp [firstLine] at member
      · obtain ⟨g, readsBehind, rest⟩ := Point.exists_reads rest
        obtain ⟨h, comma, rest⟩ := Point.exists_reads (w := [',']) rest
        obtain ⟨pad, o, c, d, readsPad', blanks, rounds, found⟩ :=
          rounds_of_mem_firstLine closes member rest
        obtain ⟨k, iterated⟩ := takes_loop.mp rounds
        have behind := blank_of first.white_behind flat'
        have words : (several .word).Takes b f := takes_run.mpr
          ⟨_, List.length_pos_iff.mpr first.nonempty, first.members, readsName⟩
        -- A name, the comma behind it and the blanks around the comma are one round.
        have round : memberRound.Takes b o := takes_seqs_append.mpr
          ⟨f, ⟨f, words, takes_optional.mpr (.inl rfl)⟩,
            g, takes_run.mpr ⟨_, Nat.zero_le _, behind, readsBehind⟩,
            h, comma, takes_run.mpr ⟨_, Nat.zero_le _, blanks, readsPad'⟩⟩
        exact ⟨_, b, c, d, readsPad, before, takes_loop.mpr ⟨k + 1, o, round, iterated⟩, found⟩
termination_by others.length

/-- What is passed before a name, and the name itself, begin with a character of a set. -/
theorem exists_ahead {set : CharSet} {r : Regex} {name : List Char} {s a b : Point}
    (begins : ∀ c, r.begins c = true → set.mem c = true) (takes : r.Takes s a)
    (reads : a.Reads name b) (some : name ≠ []) (members : ∀ c ∈ name, set.mem c = true) :
    ∃ c rest, s.rest = c :: rest ∧ set.mem c = true := by
  obtain ⟨w, readsW, _⟩ := takes.reads
  cases w with
  | nil =>
    cases readsW
    obtain ⟨c, name, rfl⟩ := List.exists_cons_of_ne_nil some
    exact ⟨c, _, reads.rest_eq, members c List.mem_cons_self⟩
  | cons c w => exact ⟨c, _, readsW.rest_eq, begins c (takes.begins readsW)⟩

section

variable {path : List Char} {bracketed : Bool} {first : Entry Unicode.isWord}
  {others : List (Entry Unicode.isWord)}

theorem toList_memberImport : (memberImport path bracketed first others).toList =
    memberHead path bracketed ++ (listing first others ++ closing bracketed) :=
  String.toList_ofList

theorem not_mem_memberHead (pathChars : ∀ c ∈ path, dotted.mem c = true) :
    '\n' ∉ memberHead path bracketed := by
  have flat : '\n' ∉ path := fun member => absurd (pathChars _ member) (by decide)
  simp only [memberHead, List.mem_append, not_or]
  refine ⟨by decide, by decide, flat, by decide, by decide, by decide, ?_⟩
  cases bracketed <;> decide

theorem closing_mem : ∀ d ∈ closing bracketed, d = ')' := by
  cases bracketed <;> simp [closing]

/-- A keyword with a name beside it is found at the beginning of the import only. -/
theorem start_of_keyword (pathChars : ∀ c ∈ path, dotted.mem c = true) {keyword : String}
    (letterwise : ∀ c ∈ keyword.toList, Unicode.isWord c = true) (nonempty : keyword.toList ≠ [])
    {p s : Point} (inside : p.In (memberImport path bracketed first others).toList)
    (takes : (seqs (indent ++ letters keyword ++ [several blank])).Takes p s) {c : Char}
    {rest : List Char} (ahead : s.rest = c :: rest) (beside : dotted.mem c = true) :
    ∃ gap, gap ≠ [] ∧ (∀ d ∈ gap, blank.mem d = true) ∧
      (memberImport path bracketed first others).toList = keyword.toList ++ (gap ++ s.rest) := by
  obtain ⟨u, start⟩ := inside
  rw [List.append_assoc] at takes
  obtain ⟨begins, pad, o, blanks, readsPad, takes⟩ := (takes_indent_iff start).mp takes
  obtain ⟨o', word, gaps⟩ := takes_seqs_append.mp takes
  obtain ⟨gap, some, blanksGap, readsGap⟩ := takes_several gaps
  have whole : (memberImport path bracketed first others).toList =
      u ++ (pad ++ (keyword.toList ++ (gap ++ s.rest))) := by
    have read := (start.trans (readsPad.trans ((takes_chars.mp word).trans readsGap))).rest_eq
    simpa [Point.start] using read
  rw [toList_memberImport] at whole ⊢
  refine ⟨gap, some, blanksGap, ?_⟩
  rcases begins with rfl | ⟨lines, rfl⟩
  · -- The import is not indented.
    cases pad with
    | nil => exact whole
    | cons d pad =>
      have letter : 'f' = d := (List.cons.inj whole).1
      exact absurd (blanks d List.mem_cons_self) (by rw [← letter]; decide)
  · -- Another line begins within the list, where no two words stand side by side.
    rw [List.append_assoc, List.singleton_append] at whole
    obtain ⟨y, _, found⟩ := Text.split_behind (not_mem_memberHead pathChars) whole
    obtain ⟨front, k, split⟩ := (List.eq_nil_or_concat' keyword.toList).resolve_left nonempty
    have together : listing first others ++ closing bracketed =
        (y ++ '\n' :: (pad ++ front)) ++ k :: (gap ++ c :: rest) := by
      simpa [split, ahead] using found
    exact absurd together (not_side_by_side closing_mem (letterwise k (by simp [split])) some
      (fun d member => isWhite_of_blank (blanksGap d member)) beside)

theorem not_blank_of_dotted {c : Char} (member : dotted.mem c = true) : blank.mem c = false := by
  rw [Bool.eq_false_iff]
  intro blank
  rcases blank_mem_iff.mp blank with rfl | rfl <;> exact absurd member (by decide)

theorem head?_of_members {set : CharSet} {w rest : List Char} (some : w ≠ [])
    (members : ∀ c ∈ w, set.mem c = true) : ∀ c ∈ (w ++ rest).head?, set.mem c = true := by
  obtain ⟨c, w, rfl⟩ := List.exists_cons_of_ne_nil some
  simpa using members c List.mem_cons_self

/-- The package is read as a whole, and the keyword follows. -/
theorem path_of_from (pathChars : ∀ c ∈ path, dotted.mem c = true) (somePath : path ≠ [])
    {p s t : Point} {w : List Char} (inside : p.In (memberImport path bracketed first others).toList)
    (takes : (seqs fromFront).Takes p s) (reads : s.Reads w t) (some : w ≠ [])
    (members : ∀ c ∈ w, dotted.mem c = true) (ends : ∀ c ∈ t.rest.head?, dotted.mem c = false) :
    w = path ∧ t.rest = [' '] ++ ("import".toList ++ ([' '] ++
      (opening bracketed ++ (listing first others ++ closing bracketed)))) := by
  obtain ⟨c, w', shape⟩ := List.exists_cons_of_ne_nil some
  have ahead : s.rest = c :: (w' ++ t.rest) := by rw [reads.rest_eq, shape, List.cons_append]
  obtain ⟨gap, _, blanks, whole⟩ := start_of_keyword pathChars (List.all_eq_true.mp (by decide))
    (by decide) inside takes ahead (members c (by simp [shape]))
  rw [toList_memberImport, memberHead] at whole
  simp only [List.append_assoc] at whole
  -- The blanks and the path are both read to their ends, where another kind of character stands.
  have solid : ∀ {v rest : List Char}, v ≠ [] → (∀ c ∈ v, dotted.mem c = true) →
      ∀ c ∈ (v ++ rest).head?, blank.mem c = false :=
    fun some members c head => not_blank_of_dotted (head?_of_members some members c head)
  obtain ⟨rfl, named⟩ := Text.run_unique (List.all_eq_true.mp (by decide)) blanks
    (solid somePath pathChars) (reads.rest_eq ▸ solid some members) (List.append_cancel_left whole)
  rw [reads.rest_eq] at named
  obtain ⟨rfl, rest⟩ := Text.run_unique pathChars members (by rintro d ⟨⟩; rfl) ends named
  exact ⟨rfl, rest.symm⟩

theorem not_takes_importFront (pathChars : ∀ c ∈ path, dotted.mem c = true) {p s : Point}
    (inside : p.In (memberImport path bracketed first others).toList) {c : Char} {rest : List Char}
    (ahead : s.rest = c :: rest) (beside : dotted.mem c = true) : ¬ (seqs importFront).Takes p s := by
  intro takes
  obtain ⟨gap, _, _, whole⟩ := start_of_keyword pathChars (List.all_eq_true.mp (by decide))
    (by decide) inside takes ahead beside
  rw [toList_memberImport] at whole
  exact absurd (List.cons.inj whole).1 (by decide)

/-- The list begins behind its bracket, if there is one, or behind the blank. -/
theorem listing_of_opening {a b c d : Point} (rest : a.rest = [' '] ++
      (opening bracketed ++ (listing first others ++ closing bracketed)))
    (gaps : (several blank).Takes a b) (bracket : (maybe (.char '(')).Takes b c)
    (pads : (many blank).Takes c d) {e : Char} {behind : List Char} (ahead : d.rest = e :: behind)
    (word : Unicode.isWord e = true) :
    ∃ pad, (∀ e ∈ pad, blank.mem e = true) ∧
      listing first others ++ closing bracketed = pad ++ d.rest := by
  obtain ⟨gap, someGap, blanksGap, readsGap⟩ := takes_several gaps
  obtain ⟨pad, _, blanksPad, readsPad⟩ := takes_run.mp pads
  obtain ⟨space, gap, rfl⟩ := List.exists_cons_of_ne_nil someGap
  simp only [List.mem_cons, forall_eq_or_imp] at blanksGap
  rw [readsGap.rest_eq] at rest
  have within : gap ++ b.rest =
      opening bracketed ++ (listing first others ++ closing bracketed) := (List.cons.inj rest).2
  rcases takes_optional.mp bracket with rfl | taken
  · rw [readsPad.rest_eq, ← List.append_assoc] at within
    have blanks : ∀ e ∈ gap ++ pad, blank.mem e = true :=
      fun e member => (List.mem_append.mp member).elim (blanksGap.2 e) (blanksPad e)
    cases bracketed with
    | true =>
      -- Without the bracket, a word would stand in its place.
      have unblank : ∀ e ∈ d.rest.head?, blank.mem e = false := by
        rw [ahead]
        rintro e ⟨⟩
        exact not_blank_of_dotted (dotted_mem_iff.mpr (.inl word))
      obtain ⟨_, found⟩ := Text.run_unique (v := []) blanks (by simp) unblank
        (by rintro e ⟨⟩; rfl) within
      obtain ⟨rfl, _⟩ := List.cons.inj (ahead.symm.trans found)
      exact absurd word (by decide)
    | false => exact ⟨gap ++ pad, blanks, within.symm⟩
  · have bracketRest : b.rest = '(' :: c.rest := taken.rest_eq
    rw [bracketRest] at within
    cases bracketed with
    | true =>
      obtain ⟨_, found⟩ := Text.run_unique (v := []) blanksGap.2 (by simp) (by rintro e ⟨⟩; rfl)
        (by rintro e ⟨⟩; rfl) within
      exact ⟨pad, blanksPad, (List.cons.inj found).2.symm.trans readsPad.rest_eq⟩
    | false =>
      have member : '(' ∈ listing first others := by
        have listed : '(' ∈ opening false ++ (listing first others ++ closing false) := by
          rw [← within]
          simp
        simpa [opening, closing] using listed
      exact absurd (mem_listing member) (by decide)

theorem head?_of_several {a b : Point} (gaps : (several blank).Takes a b) :
    ∀ c ∈ a.rest.head?, dotted.mem c = false := by
  obtain ⟨gap, some, blanks, reads⟩ := takes_several gaps
  intro c head
  rw [reads.rest_eq] at head
  rw [Bool.eq_false_iff]
  intro member
  have blank := head?_of_members some blanks c head
  rw [not_blank_of_dotted member] at blank
  contradiction

/-- The form for a package finds the last component of the path. -/
theorem lastPart_of_from (pathChars : ∀ c ∈ path, dotted.mem c = true) (somePath : path ≠ [])
    {name : List Char} (some : name ≠ []) (word : ∀ c ∈ name, Unicode.isWord c = true) {p a b q : Point}
    (inside : p.In (memberImport path bracketed first others).toList)
    (front : (seqs (fromFront ++ [leading dotted '.'])).Takes p a) (reads : a.Reads name b)
    (back : (seqs fromBack).Takes b q) : Text.lastPart '.' path = name := by
  obtain ⟨s, front, leads⟩ := takes_seqs_append.mp front
  obtain ⟨dir, readsDir, shape⟩ := reads_leading leads
  -- What is read up to the end of the name has the characters of a path.
  have members : ∀ c ∈ dir ++ name, dotted.mem c = true := by
    intro c member
    rcases List.mem_append.mp member with member | member
    · rcases shape with rfl | ⟨dir, rfl, members⟩
      · simp at member
      · rcases List.mem_append.mp member with member | member
        · exact members c member
        · exact dotted_mem_iff.mpr (.inr (List.mem_singleton.mp member))
    · exact dotted_mem_iff.mpr (.inl (word c member))
  obtain ⟨_, back, _⟩ := takes_seqs_append.mp back
  obtain ⟨_, gaps, _⟩ := takes_seqs_append.mp back
  -- A gap follows, so the path ends there.
  obtain ⟨rfl, _⟩ := path_of_from pathChars somePath inside front (readsDir.trans reads)
    (by simp [some]) members (head?_of_several gaps)
  apply Text.lastPart_of_line (shape.imp_right fun found => found.imp fun _ => And.left)
  exact fun member => absurd (word _ member) (by decide)

/-- The form for imported modules is not found. -/
theorem not_takes_import (pathChars : ∀ c ∈ path, dotted.mem c = true) {name : List Char}
    (some : name ≠ []) (word : ∀ c ∈ name, Unicode.isWord c = true) {p a b : Point}
    (inside : p.In (memberImport path bracketed first others).toList) (reads : a.Reads name b) :
    ¬ (seqs (importFront ++ [loop (seqs (item ++ comma)), leading dotted '.'])).Takes p a := by
  intro front
  obtain ⟨s, front, leads⟩ := takes_seqs_append.mp front
  -- Whatever the form reads next begins with a character of a path.
  have begins : ∀ c, (seqs [loop (seqs (item ++ comma)), leading dotted '.']).begins c = true →
      dotted.mem c = true := by
    intro c begins
    have cases : dotted.mem c = true ∨ dotted.mem c = true ∨ c = '.' := by
      simpa [loop, item, comma, seqs, leading, maybe, many, several, Regex.begins, Regex.nullable]
        using begins
    rcases cases with here | here | rfl
    · exact here
    · exact here
    · rfl
  obtain ⟨c, rest, ahead, beside⟩ := exists_ahead begins leads reads some
    fun c member => dotted_mem_iff.mpr (.inl (word c member))
  exact not_takes_importFront pathChars inside ahead beside front

/-- The form for members finds only names of the first line. -/
theorem mem_firstLine_of_member (pathChars : ∀ c ∈ path, dotted.mem c = true) (somePath : path ≠ [])
    {name : List Char} (some : name ≠ []) (word : ∀ c ∈ name, Unicode.isWord c = true) {p a b q : Point}
    (inside : p.In (memberImport path bracketed first others).toList)
    (front : (seqs (fromFront ++ [several dotted, several blank] ++ letters "import" ++
      [several blank, maybe (.char '('), many blank, loop memberRound])).Takes p a)
    (reads : a.Reads name b) (back : edge.Takes b q) : name ∈ firstLine (first :: others) := by
  have ends : ∀ c ∈ b.rest.head?, Unicode.isWord c = false := by
    obtain ⟨u, start⟩ := inside
    obtain ⟨w, passed, _⟩ := front.reads
    obtain ⟨_, isEdge⟩ := (takes_edge_iff (start.trans (passed.trans reads))).mp back
    obtain ⟨init, c, rfl⟩ := (List.eq_nil_or_concat' name).resolve_left some
    simp only [← List.append_assoc] at isEdge
    exact (isEdge_concat_iff (word c (by simp))).mp isEdge
  obtain ⟨y, front, g, gaps', m, bracket, n, pads, rounds⟩ := takes_seqs_append.mp front
  obtain ⟨x, front, keyword⟩ := takes_seqs_append.mp front
  obtain ⟨s, front, t, dots, gaps⟩ := takes_seqs_append.mp front
  obtain ⟨w, someW, members, readsW⟩ := takes_several dots
  obtain ⟨_, rest⟩ := path_of_from pathChars somePath inside front readsW someW members
    (head?_of_several gaps)
  -- The keyword stands behind the package, with one blank on either side.
  have opened : y.rest = [' '] ++
      (opening bracketed ++ (listing first others ++ closing bracketed)) := by
    obtain ⟨gap, _, blanks, readsGap⟩ := takes_several gaps
    have readsKeyword : x.Reads "import".toList y := takes_chars.mp keyword
    rw [readsGap.rest_eq, readsKeyword.rest_eq] at rest
    obtain ⟨_, rest⟩ := Text.run_unique blanks (List.all_eq_true.mp (by decide))
      (by rintro c ⟨⟩; rfl) (by rintro c ⟨⟩; rfl) rest
    exact List.append_cancel_left rest
  -- Rounds begin with a name, so the blanks before them reach to the first name.
  have begins : ∀ c, (loop memberRound).begins c = true → CharSet.word.mem c = true := by
    intro c begins
    simpa [loop, memberRound, comma, seqs, several, Regex.begins, Regex.nullable] using begins
  obtain ⟨c, behind, ahead, letter⟩ := exists_ahead begins rounds reads some word
  obtain ⟨pad, blanks, same⟩ := listing_of_opening opened gaps' bracket pads ahead letter
  exact mem_firstLine_of_rounds closing_mem same blanks rounds reads ends some word

theorem firstLine_of_found (pathChars : ∀ c ∈ path, dotted.mem c = true) (somePath : path ≠ [])
    {name : List Char} (some : name ≠ []) (word : ∀ c ∈ name, Unicode.isWord c = true)
    (found : FoundIn forms name (memberImport path bracketed first others).toList) :
    Text.lastPart '.' path = name ∨ name ∈ firstLine (first :: others) := by
  obtain ⟨form, member, p, a, b, q, inside, front, reads, back⟩ := found
  simp only [forms, List.mem_cons, List.not_mem_nil, or_false] at member
  rcases member with rfl | rfl | rfl
  · exact .inl (lastPart_of_from pathChars somePath some word inside front reads back)
  · exact absurd front (not_takes_import pathChars some word inside reads)
  · exact .inr (mem_firstLine_of_member pathChars somePath some word inside front reads back)

/-- The import is read up to its list. -/
theorem exists_reads_head (path : List Char) (bracketed : Bool) (first : Entry Unicode.isWord)
    (others : List (Entry Unicode.isWord)) :
    ∃ s t x y, (seqs fromFront).Takes (.start (memberImport path bracketed first others).toList) s ∧
      s.Reads path t ∧ (several blank).Takes t x ∧ x.Reads "import".toList y ∧
      y.rest = [' '] ++ (opening bracketed ++ (listing first others ++ closing bracketed)) := by
  have whole : (memberImport path bracketed first others).toList = "from".toList ++ ([' '] ++ (path ++
      ([' '] ++ ("import".toList ++ ([' '] ++ (opening bracketed ++
        (listing first others ++ closing bracketed))))))) := by
    rw [toList_memberImport, memberHead]
    simp only [List.append_assoc]
  obtain ⟨o, readsFrom, rest⟩ := Point.exists_reads (p := .start _) whole
  obtain ⟨s, readsGap, rest⟩ := Point.exists_reads rest
  obtain ⟨t, readsPath, rest⟩ := Point.exists_reads rest
  obtain ⟨x, readsGap', rest⟩ := Point.exists_reads rest
  obtain ⟨y, readsImport, rest⟩ := Point.exists_reads rest
  have blanks : ∀ {a b : Point}, a.Reads [' '] b → (several blank).Takes a b :=
    fun reads => takes_run.mpr ⟨[' '], Nat.le_refl _, List.all_eq_true.mp (by decide), reads⟩
  refine ⟨s, t, x, y, ?_, readsPath, blanks readsGap', readsImport, rest⟩
  rw [show fromFront = indent ++ (letters "from" ++ [several blank]) from rfl]
  refine (takes_indent_iff (u := []) rfl).mpr ⟨.inl rfl, [], _, by simp, rfl, ?_⟩
  exact takes_seqs_append.mpr ⟨o, takes_chars.mpr readsFrom, blanks readsGap⟩

theorem found_of_firstLine (pathChars : ∀ c ∈ path, dotted.mem c = true) (somePath : path ≠ [])
    {name : List Char} (some : name ≠ []) (word : ∀ c ∈ name, Unicode.isWord c = true)
    (named : Text.lastPart '.' path = name ∨ name ∈ firstLine (first :: others)) :
    FoundIn forms name (memberImport path bracketed first others).toList := by
  obtain ⟨s, t, x, y, front, readsPath, gaps, readsImport, rest⟩ :=
    exists_reads_head path bracketed first others
  rcases named with rfl | member
  · obtain ⟨a, leads, reads⟩ := takes_leading '.' pathChars readsPath
    have ends : edge.Takes y y := takes_edge (by decide) (List.all_eq_true.mp (by decide))
      readsImport (by rw [rest]; rintro c ⟨⟩; decide)
    refine ⟨_, List.mem_cons_self, .start _, a, t, y, Point.start_in _,
      takes_seqs_append.mpr ⟨s, front, leads⟩, reads, ?_⟩
    exact takes_seqs_append.mpr ⟨y, takes_seqs_append.mpr ⟨x, gaps, takes_chars.mpr readsImport⟩, ends⟩
  · obtain ⟨g, readsGap, rest⟩ := Point.exists_reads rest
    -- The bracket is read if there is one.
    obtain ⟨m, bracket, rest⟩ : ∃ m, (maybe (.char '(')).Takes g m ∧
        m.rest = listing first others ++ closing bracketed := by
      cases bracketed with
      | true =>
        obtain ⟨m, reads, rest⟩ := Point.exists_reads rest
        exact ⟨m, takes_optional.mpr (.inr reads), rest⟩
      | false => exact ⟨g, takes_optional.mpr (.inl rfl), rest⟩
    obtain ⟨pad, n, a, b, readsPad, blanks, rounds, reads, ends⟩ :=
      rounds_of_mem_firstLine closing_mem member rest
    have package : (several dotted).Takes s t :=
      takes_run.mpr ⟨path, List.length_pos_iff.mpr somePath, pathChars, readsPath⟩
    refine ⟨_, List.mem_cons_of_mem _ (List.mem_cons_of_mem _ List.mem_cons_self), .start _, a, b, b,
      Point.start_in _, ?_, reads, takes_edge some word reads ends⟩
    refine takes_seqs_append.mpr ⟨y, takes_seqs_append.mpr ⟨x, takes_seqs_append.mpr
      ⟨s, front, t, package, gaps⟩, takes_chars.mpr readsImport⟩, g, ?_, m, bracket, n, ?_, rounds⟩
    · exact takes_run.mpr ⟨[' '], Nat.le_refl _, List.all_eq_true.mp (by decide), readsGap⟩
    · exact takes_run.mpr ⟨pad, Nat.zero_le _, blanks, readsPad⟩

theorem judges_memberImport (pathChars : ∀ c ∈ path, dotted.mem c = true) (somePath : path ≠ [])
    {name : String} (some : name ≠ "") (word : ∀ c ∈ name.toList, Unicode.isWord c = true) :
    python.Judges name (memberImport path bracketed first others)
      (Text.lastPart '.' path = name.toList ∨ name.toList ∈ firstLine (first :: others)) := by
  have nonempty : name.toList ≠ [] := by simpa using some
  apply formed.judges (by decide)
  exact ⟨firstLine_of_found pathChars somePath nonempty word,
    found_of_firstLine pathChars somePath nonempty word⟩

end

/-- An import of members of a package is confirmed, with or without brackets around its list, for the
package's own name and for the names of the list before its first newline. These are all names if
the list has one line. -/
theorem member_import_confirmed_iff {path : List Char} (somePath : path ≠ [])
    (pathChars : ∀ c ∈ path, Unicode.isWord c = true ∨ c = '.') (bracketed : Bool)
    (first : Entry Unicode.isWord) (others : List (Entry Unicode.isWord)) {name : String}
    (some : name ≠ "") (word : ∀ c ∈ name.toList, Unicode.isWord c = true) :
    python.Judges name (memberImport path bracketed first others)
        (Text.lastPart '.' path = name.toList ∨ name.toList ∈ firstLine (first :: others)) ∧
      ('\n' ∉ listing first others →
        firstLine (first :: others) = (first :: others).map Entry.name) := by
  simp only [← dotted_mem_iff] at pathChars
  exact ⟨judges_memberImport pathChars somePath some word, firstLine_of_single⟩

theorem member_import_confirmed_iff_first_line :
    ∃ first others, memberImport "pkg.sub".toList true first others =
        "from pkg.sub import (login, auth,\n    logout)" ∧
      "auth".toList ∈ firstLine (first :: others) ∧
      python.Judges "auth" (memberImport "pkg.sub".toList true first others)
        (Text.lastPart '.' "pkg.sub".toList = "auth".toList ∨
          "auth".toList ∈ firstLine (first :: others)) := by
  obtain ⟨first, others, source, member⟩ : ∃ first others,
      memberImport "pkg.sub".toList true first others =
        "from pkg.sub import (login, auth,\n    logout)" ∧
      "auth".toList ∈ firstLine (first :: others) :=
    ⟨⟨[], "login".toList, [], by decide, by decide, by decide⟩,
      [⟨[' '], "auth".toList, [], by decide, by decide, by decide⟩,
       ⟨['\n', ' ', ' ', ' ', ' '], "logout".toList, [], by decide, by decide, by decide⟩],
      by decide, by decide⟩
  have pathChars : ∀ c ∈ "pkg.sub".toList, Unicode.isWord c = true ∨ c = '.' :=
    fun c member => dotted_mem_iff.mp (List.all_eq_true.mp (by decide) c member)
  exact ⟨first, others, source, member, (member_import_confirmed_iff (by decide) pathChars true first
    others (by decide) (List.all_eq_true.mp (by decide))).1⟩

/-- A member on a line of its own is not found. -/
theorem member_on_next_line_unconfirmed :
    ∃ entry, memberImport "pkg".toList true entry [] = "from pkg import (\n    auth)" ∧
      entry.name = "auth".toList ∧
      ∃ patterns, python.dependencyPatterns "auth" = .ok patterns ∧
        ¬ ∃ pattern ∈ patterns,
          pattern.matchesIn (memberImport "pkg".toList true entry []).toList = true := by
  obtain ⟨entry, source, name, other⟩ : ∃ entry : Entry Unicode.isWord,
      memberImport "pkg".toList true entry [] = "from pkg import (\n    auth)" ∧
      entry.name = "auth".toList ∧ firstLine [entry] = [] :=
    ⟨⟨['\n', ' ', ' ', ' ', ' '], "auth".toList, [], by decide, by decide, by decide⟩, by decide, rfl,
      by decide⟩
  have judges : python.Judges "auth" (memberImport "pkg".toList true entry []) _ :=
    judges_memberImport (List.all_eq_true.mp (by decide)) (by decide) (by decide)
      (List.all_eq_true.mp (by decide))
  obtain ⟨patterns, compiled, same⟩ := judges.of_short (by decide)
  refine ⟨entry, source, name, patterns, compiled, fun found => ?_⟩
  rcases same.mp found with package | member
  · exact absurd package (by decide)
  · simp [other] at member

end Python

end Ripple.Language
