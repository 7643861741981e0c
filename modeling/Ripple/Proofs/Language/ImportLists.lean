import Ripple.Proofs.Language.Reading

/-!
Lists of imported modules. The pattern for a list captures its items with the commas between them
and stops only where the last item can be no longer; so the first word of each piece between commas
is the module of an item, with the end of a word behind it.
-/

namespace Ripple.Language.Python

open Regex Language.Part

/-- An item of a list: its module `w` leads from `k` to `b` and can be no longer, and what follows
the module leads to `a`. -/
structure Item (w : List Char) (k b a : Point) : Prop where
  nonempty : w ≠ []
  members : ∀ c ∈ w, dotted.mem c = true
  reads : k.Reads w b
  ends : ∀ c ∈ b.rest.head?, dotted.mem c = false
  rest : asName.Takes b a

/-- Items with commas between them. -/
inductive Items : Point → Point → Prop
  | last {w : List Char} {k b a : Point} : Item w k b a → Items k a
  | more {w : List Char} {k b a k' e : Point} : Item w k b a → (seqs comma).Takes a k' →
      Items k' e → Items k e

theorem item_of_picks {m n : Match} (picks : (seqs item).Picks m n) :
    ∃ w b, Item w m.stop b n.stop := by
  have parts : (seqs ([several dotted] ++ [asName])).Picks m n := picks
  obtain ⟨o, first, second⟩ := picks_seqs_append_of_passable parts (optional_ne_nil _ _)
  obtain ⟨w, nonempty, members, reads, ends⟩ := picks_run first
  exact ⟨w, o.stop, nonempty, members, reads, ends, second.takes⟩

theorem items_of_picks {m n : Match} (picks : list.Picks m n) : Items m.stop n.stop := by
  have parts : (seqs (item ++ [loop (seqs (comma ++ item))])).Picks m n := picks
  obtain ⟨a, first, others⟩ := picks_seqs_append_of_passable parts (optional_ne_nil _ _)
  obtain ⟨k, iterated⟩ := picks_loop others
  clear picks parts others
  induction k generalizing m a with
  | zero =>
    cases iterated
    obtain ⟨w, b, item⟩ := item_of_picks first
    exact .last item
  | succ k ih =>
    obtain ⟨c, round, rest⟩ := iterated
    obtain ⟨o, separator, next⟩ := picks_seqs_append round
    obtain ⟨w, b, item⟩ := item_of_picks first
    exact .more item (outcomes_takes separator) (ih c next rest)

theorem dotted_mem {c : Char} (member : dotted.mem c = true) :
    Unicode.isWord c = true ∨ c = '.' := by
  obtain ⟨s, listed, here⟩ := CharSet.mem_unions.mp member
  simp only [List.mem_cons, List.not_mem_nil, or_false] at listed
  rcases listed with rfl | rfl
  · exact .inl here
  · exact .inr (CharSet.mem_single.mp here)

theorem dotted_not_space {c : Char} (member : dotted.mem c = true) :
    Unicode.isSpace c = false := by
  rcases dotted_mem member with word | rfl
  · exact Unicode.isSpace_eq_false_of_isWord word
  · rfl

theorem dotted_ne_comma {c : Char} (member : dotted.mem c = true) : c ≠ ',' := by
  rintro rfl
  exact absurd member (by decide)

/-- The text behind the module of an item is empty, or begins with a blank and ends with a word. -/
theorem reads_asName {b a : Point} (takes : asName.Takes b a) :
    ∃ x, b.Reads x a ∧ ',' ∉ x ∧ (∀ c ∈ x.head?, Unicode.isSpace c = true) ∧
      ∀ c ∈ x.getLast?, Unicode.isSpace c = false := by
  rw [asName, maybe, takes_optional] at takes
  rcases takes with rfl | takes
  · exact ⟨[], rfl, by simp, by simp, by simp⟩
  · obtain ⟨o, first, o', letterA, o'', letterS, o''', second, third⟩ := takes
    obtain ⟨u, someU, blanksU, readsU⟩ := takes_several first
    obtain ⟨v, _, blanksV, readsV⟩ := takes_several second
    obtain ⟨w, someW, wordW, readsW⟩ := takes_several third
    -- Blanks, two letters, blanks and a word: the first blank and the last letter are known.
    refine ⟨u ++ ('a' :: 's' :: (v ++ w)), readsU.trans (letterA.trans (letterS.trans
      (readsV.trans readsW))), ?_, ?_, ?_⟩
    · simp only [List.mem_append, List.mem_cons, not_or]
      refine ⟨fun member => (blank_mem (blanksU _ member)).2 rfl, by decide, by decide,
        fun member => (blank_mem (blanksV _ member)).2 rfl, fun member => ?_⟩
      exact absurd (wordW _ member) (by decide)
    · intro c member
      cases u with
      | nil => contradiction
      | cons d u =>
        obtain rfl : d = c := by simpa using member
        exact (blank_mem (blanksU d List.mem_cons_self)).1
    · intro c member
      have last : c ∈ w := by
        rw [show u ++ 'a' :: 's' :: (v ++ w) = (u ++ 'a' :: 's' :: v) ++ w by simp,
          List.getLast?_append_of_ne_nil _ someW] at member
        exact List.mem_of_mem_getLast? member
      exact Unicode.isSpace_eq_false_of_isWord (wordW c last)

/-- The text of an item begins with its module, and neither begins nor ends with a blank. -/
theorem Item.text {w : List Char} {k b a : Point} (item : Item w k b a) :
    ∃ x, k.Reads (w ++ x) a ∧ ',' ∉ w ++ x ∧ (∀ c ∈ x.head?, Unicode.isSpace c = true) ∧
      ∀ c ∈ (w ++ x).getLast?, Unicode.isSpace c = false := by
  obtain ⟨x, reads, apart, first, last⟩ := reads_asName item.rest
  refine ⟨x, item.reads.trans reads, ?_, first, ?_⟩
  · rw [List.mem_append, not_or]
    exact ⟨fun member => dotted_ne_comma (item.members _ member) rfl, apart⟩
  · intro c member
    rcases List.eq_nil_or_concat x with rfl | ⟨y, d, rfl⟩
    · rw [List.append_nil] at member
      exact dotted_not_space (item.members c (List.mem_of_mem_getLast? member))
    · apply last c
      rwa [List.getLast?_append_of_ne_nil _ (by simp)] at member

theorem Item.takes {w : List Char} {k b a : Point} (item : Item w k b a) :
    (seqs Python.item).Takes k a :=
  ⟨b, takes_run.mpr ⟨w, List.length_pos_iff.mpr item.nonempty, item.members, item.reads⟩, item.rest⟩

theorem reads_comma {a k : Point} (takes : (seqs comma).Takes a k) :
    ∃ u v, (∀ c ∈ u, blank.mem c = true) ∧ (∀ c ∈ v, blank.mem c = true) ∧
      a.Reads (u ++ ',' :: v) k := by
  obtain ⟨o, first, o', sign, second⟩ := takes
  obtain ⟨u, _, blanksU, readsU⟩ := takes_run.mp first
  obtain ⟨v, _, blanksV, readsV⟩ := takes_run.mp second
  exact ⟨u, v, blanksU, blanksV, readsU.trans (sign.trans readsV)⟩

theorem Items.reads {k e : Point} (items : Items k e) :
    ∃ g, k.Reads g e ∧ (∀ c ∈ g.head?, Unicode.isSpace c = false) ∧ g ≠ [] ∧
      ∀ c ∈ g.getLast?, Unicode.isSpace c = false := by
  have begins : ∀ {w x : List Char} {k b a : Point}, Item w k b a →
      w ++ x ≠ [] ∧ ∀ c ∈ (w ++ x).head?, Unicode.isSpace c = false := by
    intro w x k b a item
    obtain ⟨c, w, rfl⟩ := List.exists_cons_of_ne_nil item.nonempty
    simpa using dotted_not_space (item.members c List.mem_cons_self)
  induction items with
  | last item =>
    obtain ⟨x, reads, _, _, last⟩ := item.text
    exact ⟨_, reads, (begins item).2, (begins item).1, last⟩
  | more item separator _ ih =>
    obtain ⟨x, reads, _⟩ := item.text
    obtain ⟨u, v, _, _, between⟩ := reads_comma separator
    obtain ⟨g, others, _, nonempty, last⟩ := ih
    have whole := reads.trans (between.trans others)
    rw [List.append_assoc] at whole
    refine ⟨_, whole, (begins item).2, (begins item).1, ?_⟩
    rwa [← List.append_assoc, ← List.append_assoc, List.getLast?_append_of_ne_nil _ nonempty]

/-- The modules of a list are those of its items, and what precedes an item is read as items with
commas behind them. -/
theorem Items.modules {k e : Point} (items : Items k e) {u g : List Char}
    (blanks : ∀ c ∈ u, blank.mem c = true) (reads : k.Reads g e) {m : List Char}
    (member : m ∈ (Text.splitOn ',' (u ++ g)).filterMap fun item => (Text.words item).head?) :
    ∃ k' b a, Item m k' b a ∧ (loop (seqs (item ++ comma))).Takes k k' := by
  have noCommas : ∀ u : List Char, (∀ c ∈ u, blank.mem c = true) → ',' ∉ u :=
    fun u blanks listed => (blank_mem (blanks _ listed)).2 rfl
  have apart : ∀ u : List Char, ',' ∉ u → ∀ c ∈ u, decide (c = ',') = false := by
    rintro u absent c listed
    rw [decide_eq_false_iff_not]
    rintro rfl
    exact absent listed
  induction items generalizing u g with
  | @last w k b a item =>
    obtain ⟨x, text, free, first, _⟩ := item.text
    obtain rfl := reads.chars_unique text
    have pieces : Text.splitOn ',' (u ++ (w ++ x)) = [u ++ (w ++ x)] := by
      apply Text.splitBy_of_fail (apart _ _)
      rw [List.mem_append, not_or]
      exact ⟨noCommas u blanks, free⟩
    have word := Text.head?_words (fun c listed => (blank_mem (blanks c listed)).1)
      (fun c listed => dotted_not_space (item.members c listed)) item.nonempty first
    rw [pieces, List.filterMap_cons, word] at member
    obtain rfl : m = w := by simpa using member
    exact ⟨k, b, a, item, takes_loop.mpr ⟨0, rfl⟩⟩
  | @more w k b a k' e item separator items ih =>
    obtain ⟨x, text, free, first, _⟩ := item.text
    obtain ⟨v, v', blanksV, blanksV', between⟩ := reads_comma separator
    obtain ⟨g', others, _⟩ := items.reads
    obtain rfl := reads.chars_unique (text.trans (between.trans others))
    -- The first piece ends at the comma, and the blanks behind the comma begin the next one.
    have pieces : Text.splitOn ',' (u ++ ((w ++ x) ++ ((v ++ ',' :: v') ++ g'))) =
        (u ++ (w ++ (x ++ v))) :: Text.splitOn ',' (v' ++ g') := by
      have order : u ++ ((w ++ x) ++ ((v ++ ',' :: v') ++ g')) =
          (u ++ (w ++ (x ++ v))) ++ ',' :: (v' ++ g') := by simp
      rw [order]
      apply Text.splitBy_append (apart _ _) (by simp)
      simp only [List.mem_append, not_or] at free ⊢
      exact ⟨noCommas u blanks, free.1, free.2, noCommas v blanksV⟩
    -- What stands behind the module in its piece, if anything does, begins with a blank.
    have behind : ∀ c ∈ (x ++ v).head?, Unicode.isSpace c = true := by
      intro c here
      cases x with
      | nil => exact (blank_mem (blanksV c (List.mem_of_mem_head? here))).1
      | cons d x => exact first c here
    have word := Text.head?_words (fun c listed => (blank_mem (blanks c listed)).1)
      (fun c listed => dotted_not_space (item.members c listed)) item.nonempty behind
    rw [pieces, List.filterMap_cons, word] at member
    rcases List.mem_cons.mp member with rfl | member
    · exact ⟨k, b, a, item, takes_loop.mpr ⟨0, rfl⟩⟩
    · obtain ⟨k'', b', a', found, rounds⟩ := ih blanksV' others member
      obtain ⟨n, iterated⟩ := takes_loop.mp rounds
      refine ⟨k'', b', a', found, takes_loop.mpr ⟨n + 1, k', ?_, iterated⟩⟩
      exact takes_seqs_append.mpr ⟨a, item.takes, separator⟩

/-- A name at the end of a dotted path is a word. -/
theorem word_of_lastPart {m : List Char} (members : ∀ c ∈ m, dotted.mem c = true) :
    ∀ c ∈ Text.lastPart '.' m, Unicode.isWord c = true := by
  intro c member
  obtain ⟨free, front, whole, _⟩ := Text.eq_append_lastPart '.' m
  have listed : c ∈ m := by
    rw [whole]
    exact List.mem_append_right _ member
  rcases dotted_mem (members c listed) with word | rfl
  · exact word
  · exact absurd member free

/-- Where an item of a list names a file, the form with that name is found. -/
theorem foundIn_of_item {text m : List Char} {p s k b a : Point} (inside : p.In text)
    (first : (seqs importFront).Takes p s) (rounds : (loop (seqs (item ++ comma))).Takes s k)
    (item : Item m k b a) (some : Text.lastPart '.' m ≠ []) :
    FoundIn forms (Text.lastPart '.' m) text := by
  obtain ⟨o, leads, name⟩ := takes_leading '.' item.members item.reads
  have ends : ∀ c ∈ b.rest.head?, Unicode.isWord c = false := by
    intro c next
    have outside := item.ends c next
    simp only [dotted, CharSet.unions, List.foldr_cons, CharSet.mem, Bool.or_eq_false_iff] at outside
    exact outside.1
  refine ⟨_, List.mem_cons_of_mem _ List.mem_cons_self, p, o, b, b, inside,
    takes_seqs_append.mpr ⟨s, first, k, rounds, leads⟩, name, ?_⟩
  exact takes_edge some (word_of_lastPart item.members) name ends

/-- Where a module imported in a list names a file, the form with that name is found. -/
theorem foundIn_of_list {text : List Char} {hit : Match} {s e : Point} {m : List Char}
    (found : hit ∈ importPattern.matchesOf text) (captured : hit.group? 1 = some (s, e))
    (member : m ∈ ImportReading.list.modules (s.charsTo e)) (some : Text.lastPart '.' m ≠ []) :
    FoundIn forms (Text.lastPart '.' m) text := by
  obtain ⟨p, a, b, inside, first, second, rfl, rfl⟩ :=
    picks_of_match importPattern_regex (by decide) found captured
  have items : Items a.stop b.stop := items_of_picks second
  obtain ⟨g, reads, begins, _, ends⟩ := items.reads
  rw [reads.charsTo_eq, ImportReading.modules, Text.trim_eq_self begins ends] at member
  obtain ⟨k, b', a', item, rounds⟩ := items.modules (u := []) (by simp) reads member
  exact foundIn_of_item inside first rounds item some

/-- Where a module imported from names a file, the form with that name is found. -/
theorem foundIn_of_from {text : List Char} {hit : Match} {s e : Point} {m : List Char}
    (found : hit ∈ fromPattern.matchesOf text) (captured : hit.group? 1 = some (s, e))
    (member : m ∈ ImportReading.list.modules (s.charsTo e)) :
    FoundIn forms (Text.lastPart '.' m) text := by
  obtain ⟨p, q, inside, first, body, last⟩ :=
    spans_of_match fromPattern_regex (by decide) found captured
  obtain ⟨w, nonempty, members, reads⟩ := takes_several body
  have solid : ∀ c ∈ w, Unicode.isSpace c = false := fun c listed =>
    dotted_not_space (members c listed)
  have trimmed : Text.trim w = w := Text.trim_eq_self
    (fun c here => solid c (List.mem_of_mem_head? here))
    (fun c here => solid c (List.mem_of_mem_getLast? here))
  -- A path with dots has no comma and no blank, so the list has one item: the path itself.
  have pieces : Text.splitOn ',' w = [w] :=
    Text.splitBy_of_fail fun c listed => by simpa using dotted_ne_comma (members c listed)
  have word : (Text.words w).head? = some w := by
    simpa using Text.head?_words (u := []) (x := []) (by simp) solid nonempty (by simp)
  obtain rfl : m = w := by
    rw [reads.charsTo_eq, ImportReading.modules, trimmed, pieces, List.filterMap_cons, word] at member
    simpa using member
  obtain ⟨o, leads, name⟩ := takes_leading '.' members reads
  exact ⟨_, List.mem_cons_self, p, o, e, q, inside, takes_seqs_append.mpr ⟨s, first, leads⟩, name,
    last⟩

end Ripple.Language.Python
