import Ripple.Proofs.Language.ExportLines

/-!
Words and the blanks around them. Words at the beginning of a text, with blanks behind each, can be
told in one way only, so of two such rows one is the beginning of the other.
-/

namespace Ripple

open Ripple.Language Language.Part

namespace Text

/-- A text of blanks. -/
def Blanks (pad : List Char) : Prop := ∀ c ∈ pad, blank.mem c = true

theorem Blanks.nil : Blanks [] := by simp [Blanks]

theorem Blanks.space : Blanks [' '] := by simp [Blanks, blank_mem_iff]

theorem Blanks.append {pad pad' : List Char} (blanks : Blanks pad) (blanks' : Blanks pad') :
    Blanks (pad ++ pad') :=
  List.forall_mem_append.mpr ⟨blanks, blanks'⟩

theorem Blanks.not_mem {pad : List Char} (blanks : Blanks pad) {c : Char}
    (solid : blank.mem c = false) : c ∉ pad := by
  intro listed
  simp [blanks c listed] at solid

/-- A word that blanks can be told from. -/
def isSolid (word : List Char) : Bool := word != [] && word.all fun c => !blank.mem c

theorem isSolid_iff {word : List Char} :
    isSolid word = true ↔ word ≠ [] ∧ ∀ c ∈ word, blank.mem c = false := by
  simp [isSolid]

/-- The text goes on with something else than a blank, if it goes on. -/
def Goes (text : List Char) : Prop := ∀ c ∈ text.head?, blank.mem c = false

/-- Words with blanks behind each. -/
inductive Spaced : List (List Char) → List Char → Prop
  | nil : Spaced [] []
  | cons {word gap text : List Char} {words : List (List Char)} :
      isSolid word = true → gap ≠ [] → Blanks gap → Spaced words text →
      Spaced (word :: words) (word ++ (gap ++ text))

theorem Goes.word {word : List Char} (solid : isSolid word = true) (text : List Char) :
    Goes (word ++ text) := by
  obtain ⟨some, solid⟩ := isSolid_iff.mp solid
  intro c first
  cases word with
  | nil => exact absurd rfl some
  | cons d word =>
    obtain rfl : d = c := by simpa using first
    exact solid d List.mem_cons_self

theorem Spaced.goes {words : List (List Char)} {text rest : List Char} (spaced : Spaced words text)
    (goes : Goes rest) : Goes (text ++ rest) := by
  cases spaced with
  | nil => exact goes
  | cons solid => simpa using Goes.word solid _

/-- Behind a line there is at most a line feed. -/
theorem IsLine.exists_tail {line text : List Char} (isLine : IsLine line text) :
    ∃ tail, text = line ++ tail ∧ ∀ c ∈ tail.head?, c = '\n' := by
  rcases isLine.2 with rfl | rfl
  · exact ⟨[], by simp⟩
  · exact ⟨['\n'], by simp⟩

/-- What is not a line feed is asked of the line alone. -/
theorem head_of_tail {set : CharSet} (feed : set.mem '\n' = false) {rest tail : List Char}
    (ends : ∀ c ∈ tail.head?, c = '\n') (none : ∀ c ∈ rest.head?, set.mem c = false) :
    ∀ c ∈ (rest ++ tail).head?, set.mem c = false := by
  cases rest with
  | nil =>
    intro c first
    rwa [ends c first]
  | cons c rest => exact none

theorem Spaced.append {words words' : List (List Char)} {text text' : List Char}
    (first : Spaced words text) (second : Spaced words' text') :
    Spaced (words ++ words') (text ++ text') := by
  induction first with
  | nil => exact second
  | cons solid some blanks _ ih => simpa using Spaced.cons solid some blanks ih

theorem Spaced.split {words words' : List (List Char)} {text : List Char}
    (spaced : Spaced (words ++ words') text) :
    ∃ first second, text = first ++ second ∧ Spaced words first ∧ Spaced words' second := by
  induction words generalizing text with
  | nil => exact ⟨[], text, rfl, .nil, spaced⟩
  | cons word words ih =>
    cases spaced with
    | cons solid some blanks tail =>
      obtain ⟨first, second, rfl, one, two⟩ := ih tail
      exact ⟨_, second, by simp, .cons solid some blanks one, two⟩

theorem Spaced.not_mem {words : List (List Char)} {text : List Char} {c : Char}
    (spaced : Spaced words text) (absent : ∀ word ∈ words, c ∉ word) (solid : blank.mem c = false) :
    c ∉ text := by
  induction spaced with
  | nil => exact List.not_mem_nil
  | cons _ _ blanks _ ih =>
    obtain ⟨here, later⟩ := List.forall_mem_cons.mp absent
    simp only [List.mem_append, not_or]
    exact ⟨here, blanks.not_mem solid, ih later⟩

theorem spaced_singleton {word text : List Char} : Spaced [word] text ↔
    isSolid word = true ∧ ∃ gap, gap ≠ [] ∧ Blanks gap ∧ text = word ++ gap := by
  constructor
  · rintro (_ | ⟨solid, some, blanks, ⟨⟩⟩)
    exact ⟨solid, _, some, blanks, by simp⟩
  · rintro ⟨solid, gap, some, blanks, rfl⟩
    simpa using Spaced.cons solid some blanks .nil

/-- Blanks are cut off in one way only. -/
theorem blanks_unique {pad pad' text text' : List Char} (blanks : Blanks pad)
    (blanks' : Blanks pad') (goes : Goes text) (goes' : Goes text')
    (same : pad ++ text = pad' ++ text') : pad = pad' ∧ text = text' :=
  run_unique blanks blanks' goes goes' same

theorem word_unique {word word' gap gap' text text' : List Char} (solid : isSolid word = true)
    (solid' : isSolid word' = true) (some : gap ≠ []) (some' : gap' ≠ [])
    (blanks : Blanks gap) (blanks' : Blanks gap')
    (same : word ++ (gap ++ text) = word' ++ (gap' ++ text')) :
    word = word' ∧ gap ++ text = gap' ++ text' := by
  have ends : ∀ {gap text : List Char}, gap ≠ [] → Blanks gap →
      ∀ c ∈ (gap ++ text).head?, (!blank.mem c) = false := by
    intro gap text some blanks c first
    rw [List.head?_append_of_ne_nil _ some] at first
    simp [blanks c (List.mem_of_mem_head? first)]
  have solids : ∀ {word : List Char}, isSolid word = true → ∀ c ∈ word, (!blank.mem c) = true :=
    fun solid c member => by simp [(isSolid_iff.mp solid).2 c member]
  exact run_unique (solids solid) (solids solid') (ends some blanks)
    (ends some' blanks') same

/-- A line begins with a blank or with its first word. -/
theorem Spaced.first {word pad head rest : List Char} {words : List (List Char)}
    (blanks : Blanks pad) (spaced : Spaced (word :: words) head) {c : Char}
    (first : c ∈ (pad ++ (head ++ rest)).head?) : blank.mem c = true ∨ c ∈ word.head? := by
  cases pad with
  | cons d pad =>
    obtain rfl : d = c := by simpa using first
    exact .inl (blanks d List.mem_cons_self)
  | nil =>
    cases spaced with
    | cons solid =>
      rw [List.nil_append, List.append_assoc,
        List.head?_append_of_ne_nil _ (isSolid_iff.mp solid).1] at first
      exact .inr first

/-- The word that a line begins with, behind blanks. -/
def firstWord (line : List Char) : List Char :=
  (line.dropWhile blank.mem).takeWhile fun c => !blank.mem c

theorem firstWord_of_word {pad word gap rest : List Char} (blanks : Blanks pad)
    (solid : isSolid word = true) (some : gap ≠ []) (blanks' : Blanks gap) :
    firstWord (pad ++ (word ++ (gap ++ rest))) = word := by
  obtain ⟨_, solid'⟩ := isSolid_iff.mp solid
  have goes := Goes.word solid (gap ++ rest)
  obtain ⟨c, gap, rfl⟩ := List.exists_cons_of_ne_nil some
  have start : (word ++ (c :: gap ++ rest)).dropWhile blank.mem = word ++ (c :: gap ++ rest) := by
    cases whole : word ++ (c :: gap ++ rest) with
    | nil => rfl
    | cons d cs =>
      rw [whole] at goes
      rw [List.dropWhile_cons_of_neg (by simp [goes d rfl])]
  rw [firstWord, List.dropWhile_append_of_pos blanks, start,
    List.takeWhile_append_of_pos fun d member => by simp [solid' d member], List.cons_append,
    List.takeWhile_cons_of_neg (by simp [blanks' c List.mem_cons_self]), List.append_nil]

/-- The first word of a line with blanks behind it is found without what ends the line. -/
theorem firstWord_of_line {line tail pad word gap rest : List Char}
    (blanks : Blanks pad) (solid : isSolid word = true) (some : gap ≠ [])
    (blanks' : Blanks gap) (feed : ∀ c ∈ tail.head?, c = '\n') (plain : '\n' ∉ word)
    (same : line ++ tail = pad ++ (word ++ (gap ++ rest))) : firstWord line = word := by
  have parts : line ++ tail = (pad ++ (word ++ gap)) ++ rest := by simpa using same
  rcases List.append_eq_append_iff.mp parts with ⟨more, front, behind⟩ | ⟨more, rfl, _⟩
  · cases more with
    | nil =>
      rw [List.append_nil] at front
      simpa [← front] using @firstWord_of_word pad word gap [] blanks solid some blanks'
    | cons c more =>
      -- What ends the line would stand in the word or among the blanks.
      obtain rfl := feed c (by simp [behind])
      have member : '\n' ∈ pad ++ (word ++ gap) := by simp [front]
      simp only [List.mem_append] at member
      rcases member with member | member | member
      · exact absurd member (blanks.not_mem (by decide))
      · exact absurd member plain
      · exact absurd member (blanks'.not_mem (by decide))
  · simpa using @firstWord_of_word pad word gap more blanks solid some blanks'

/-- A word that goes without blanks is found in the first word of a line. -/
theorem exists_rest_of_word {keyword text word gap rest : List Char}
    (solid : ∀ c ∈ keyword, blank.mem c = false) (some : gap ≠ [])
    (blanks : Blanks gap) (same : keyword ++ text = word ++ (gap ++ rest)) :
    ∃ more, word = keyword ++ more ∧ text = more ++ (gap ++ rest) := by
  rcases List.append_eq_append_iff.mp same with ⟨more, front, behind⟩ | ⟨more, front, behind⟩
  · exact ⟨more, front, behind⟩
  · cases more with
    | nil => exact ⟨[], by simpa using front.symm, by simpa using behind.symm⟩
    | cons c more =>
      -- The blank behind the word would be part of the keyword.
      obtain ⟨d, gap, rfl⟩ := List.exists_cons_of_ne_nil some
      obtain ⟨rfl, _⟩ := List.cons.inj behind
      have solid := solid d (by simp [front])
      rw [blanks d List.mem_cons_self] at solid
      contradiction

/-- Of two rows of words at the beginning of a text, one is the beginning of the other. -/
theorem Spaced.compare {words words' : List (List Char)} {text text' rest rest' : List Char}
    (first : Spaced words text) (second : Spaced words' text') (goes : Goes rest)
    (goes' : Goes rest') (same : text ++ rest = text' ++ rest') :
    (∃ more between, words' = words ++ more ∧ Spaced more between ∧ rest = between ++ rest') ∨
      ∃ more between, words = words' ++ more ∧ Spaced more between ∧ rest' = between ++ rest := by
  induction first generalizing words' text' with
  | nil => exact .inl ⟨words', text', rfl, second, same⟩
  | @cons word gap text words solid some blanks tail ih =>
    cases second with
    | nil => exact .inr ⟨_, _, rfl, .cons solid some blanks tail, same.symm⟩
    | @cons word' gap' text' words' solid' some' blanks' tail' =>
      -- Both rows begin with the same word and the same blanks, and the rest is compared likewise.
      simp only [List.append_assoc] at same
      obtain ⟨rfl, gaps⟩ := word_unique solid solid' some some' blanks blanks' same
      obtain ⟨rfl, tails⟩ := blanks_unique blanks blanks' (tail.goes goes) (tail'.goes goes') gaps
      rcases ih tail' tails with
        ⟨more, between, rfl, spaced, rest⟩ | ⟨more, between, rfl, spaced, rest⟩
      · exact .inl ⟨more, between, rfl, spaced, rest⟩
      · exact .inr ⟨more, between, rfl, spaced, rest⟩

end Text

end Ripple
