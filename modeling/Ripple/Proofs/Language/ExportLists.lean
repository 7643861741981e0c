import Ripple.Proofs.Language.ExportForms
import Ripple.Proofs.Language.ExportOrder
import Ripple.Proofs.Language.Rows

/-!
Lists of exported names in JavaScript. All names of a list are told with one line, the one on which
the list is opened. So a name is on the line that is told with it if no line ends between the opening
brace and the name, and otherwise it stands as many lines further down as there end.
-/

namespace Ripple

namespace Text

theorem afterLast_suffix (part cs : List Char) : afterLast part cs <:+ cs := by
  -- The best answer so far and what is still to be looked at are both at the end of the text.
  suffices general : ∀ best rest, best <:+ cs → rest <:+ cs → afterLast.go part best rest <:+ cs from
    general cs cs List.suffix_rfl List.suffix_rfl
  intro best rest
  induction rest generalizing best with
  | nil => exact fun ends _ => ends
  | cons c rest ih =>
    intro ends later
    have next : rest <:+ cs := (List.suffix_cons c rest).trans later
    rw [afterLast.go]
    split
    · exact ih _ ((List.drop_suffix _ _).trans later) next
    · exact ih _ ends next

end Text

namespace Language.JavaScript

open Regex Language.Part Text

/-- A text that ends with the words which open a list, at the beginning of a line. -/
def OpensList (text : List Char) : Prop :=
  ∃ lines pad gap word gap', WholeLines lines ∧ Blanks pad ∧ Blanks gap ∧ Blanks gap' ∧
    (word = [] ∧ gap' = [] ∨ word = "type".toList) ∧
    text = lines ++ (pad ++ ("export".toList ++ (gap ++ (word ++ gap'))))

/-- Where a name stands in a list in braces: what is before the opening brace, what is between it
and the name, and what is behind the name. -/
structure Listed (text name before inside behind : List Char) : Prop where
  whole : text = before ++ '\x7b' :: (inside ++ (name ++ behind))
  opens : OpensList before
  unclosed : '\x7d' ∉ inside
  ends : ∃ blanks c rest, (∀ b ∈ blanks, Unicode.isSpace b = true) ∧ (c = ',' ∨ c = '\x7d') ∧
    behind = blanks ++ c :: rest

theorem exportListPattern_group (m : Match) : exportListPattern.group? m "names" = m.group? 1 := by
  have index : exportListPattern.groupIndex? "names" = some 1 := by
    rw [exportListPattern, Pattern.ofText_eq rfl]
    rfl
  rw [Pattern.group?, index]
  rfl

/-- A list begins behind an opening brace and ends in front of the first closing one. -/
theorem list_of_match {text : List Char} {m : Match} (found : m ∈ exportListPattern.matchesOf text)
    {s e : Point} (group : m.group? 1 = some (s, e)) :
    ∃ before list rest, OpensList before ∧ (Point.start text).Reads (before ++ ['\x7b']) s ∧
      s.charsTo e = list ∧ '\x7d' ∉ list ∧ s.rest = list ++ '\x7d' :: rest := by
  have steady : exportListPattern.regex.steady = true := by
    rw [exportListPattern_regex]
    decide
  obtain ⟨p, ⟨lines, inside⟩, preferred⟩ := mem_matchesOf steady found
  have member := List.mem_of_head? preferred
  rw [exportListPattern_regex] at member
  -- The match is cut at its group: what opens the list, the list, and the closing brace.
  obtain ⟨a, front, b, body, last, extent⟩ := outcomes_group rfl rfl member
  obtain ⟨rfl, rfl⟩ := Prod.mk.inj (Option.some.inj (group.symm.trans extent))
  obtain ⟨_, rfl, _, ⟨begins, rfl⟩, opening⟩ := outcomes_takes front
  obtain ⟨o, indent, opening⟩ := takes_seqs_cons.mp opening
  obtain ⟨pad, _, blanksPad, readsPad⟩ := takes_run.mp indent
  obtain ⟨gap, word, gap', blanks, blanks', typed, shape⟩ := takes_listOpening opening
  obtain ⟨words, readsWords, _⟩ := opening.reads
  obtain ⟨list, _, open', readsList⟩ := takes_run.mp (outcomes_takes (m := a.enter 1) body)
  have closing : Point.Reads b.stop ['\x7d'] m.stop := outcomes_takes (m := b.leave 1) last
  have same : words = ("export".toList ++ (gap ++ (word ++ gap'))) ++ ['\x7b'] := by
    refine List.append_cancel_right (readsWords.rest_eq.symm.trans (shape.trans ?_))
    simp
  refine ⟨lines ++ (pad ++ ("export".toList ++ (gap ++ (word ++ gap')))), list, m.stop.rest,
    ⟨lines, pad, gap, word, gap', (holds_lineStart_iff inside).mp begins, blanksPad, blanks, blanks',
      typed, rfl⟩, ?_, readsList.charsTo_eq, ?_, ?_⟩
  · rw [same] at readsWords
    simpa using inside.trans (readsPad.trans readsWords)
  · exact fun brace => absurd rfl (CharSet.mem_compl_single.mp (open' _ brace))
  · exact readsList.rest_eq.trans (congrArg (list ++ ·) closing.rest_eq)

/-- A name of a list, with the list around it. -/
theorem exists_listed {text : List Char} {x : Export}
    (hit : x ∈ (ExportGroup.nameList exportListPattern identifierPattern).hits text (.ofText text)) :
    ∃ before inside behind, Listed text x.name.toList before inside behind ∧
      x.line = before.count '\n' + 1 := by
  obtain ⟨m, found, listed⟩ := List.mem_flatMap.mp hit
  rw [exportListPattern_group] at listed
  split at listed
  next => cases listed
  next s e group =>
    obtain ⟨entry, piece, kept⟩ := List.mem_filterMap.mp listed
    dsimp only at kept
    split at kept
    next => cases kept
    next =>
      cases kept
      obtain ⟨before, list, rest, opens, reads, shape, unclosed, whole⟩ := list_of_match found group
      rw [shape] at piece
      -- The name is what is left of the last part of a piece of the list.
      obtain ⟨u, v, around, separator⟩ := cut_of_splitOn piece
      obtain ⟨skipped, last⟩ := afterLast_suffix " as ".toList entry
      obtain ⟨a, b, padded, blanks⟩ := (trim_isTrimmed (afterLast " as ".toList entry)).blanks
      rw [padded] at last
      rw [String.toList_ofList]
      generalize trim (afterLast " as ".toList entry) = name at last
      have cut : list = (u ++ (skipped ++ a)) ++ (name ++ (b ++ v)) := by
        rw [around, ← last]
        simp
      have start : text = before ++ ['\x7b'] ++ s.rest := reads.rest_eq
      refine ⟨before, u ++ (skipped ++ a), b ++ (v ++ '\x7d' :: rest), ⟨?_, opens, ?_, ?_⟩, ?_⟩
      · rw [start, whole, cut]
        simp
      · exact fun brace => unclosed (cut ▸ List.mem_append_left _ brace)
      · have spaces : ∀ c ∈ b, Unicode.isSpace c = true :=
          fun c member => blanks c (List.mem_append_right _ member)
        cases v with
        | nil => exact ⟨b, _, rest, spaces, .inr rfl, rfl⟩
        | cons c v => exact ⟨b, c, v ++ '\x7d' :: rest, spaces, .inl (separator c rfl), rfl⟩
      · rw [Point.lineOf_offset reads]
        simp

/-- Every name of an export list is told with the line on which the list is opened. It stands on that
line if no line ends between the opening brace and the name, and otherwise as many lines further down
as there end. -/
theorem listed_names_told_with_opening_line (source : String) {x : Export}
    (hit : x ∈ javaScript.exportGroups.flatMap
      (·.hits source.toList (.ofText source.toList))) :
    (∃ symbols, javaScript.exports? source = some symbols ∧ x ∈ symbols) ∧
    ∃ before inside behind, Listed source.toList x.name.toList before inside behind ∧
      x.line = before.count '\n' + 1 ∧
      (∃ line : Ripple.Line, line.Of source.toList ∧ line.number = x.line + inside.count '\n' ∧
        x.name.toList <:+: line.content) ∧
      ('\n' ∉ inside → x.Stands source.toList) := by
  have found := List.mem_append_right (rules.flatMap (·.hits source.toList (.ofText source.toList))) hit
  refine ⟨⟨_, rfl, List.mem_mergeSort.mpr found⟩, ?_⟩
  obtain ⟨group, listed, hit⟩ := List.mem_flatMap.mp hit
  obtain rfl := List.mem_singleton.mp listed
  have identifier := ExportGroup.identifier_of_hit
    (javaScript_declares.groups _ (List.mem_singleton_self _)) hit
  obtain ⟨before, inside, behind, listed, number⟩ := exists_listed hit
  have cut : source.toList = (before ++ '\x7b' :: inside) ++ (x.name.toList ++ behind) := by
    simpa using listed.whole
  have count : (before ++ '\x7b' :: inside).count '\n' + 1 = x.line + inside.count '\n' := by
    simp [number, Nat.add_right_comm]
  refine ⟨before, inside, behind, listed, number, ?_, fun level => ?_⟩
  · rw [cut, ← count]
    exact identifier.exists_line _ behind
  · refine Export.stands_of_cut identifier cut ?_
    rw [count, List.count_eq_zero.mpr level, Nat.add_zero]

/-- A list over several lines. -/
def loginList : String := "export \x7b\n  login,\n\x7d;\n"

theorem hits_loginList :
    javaScript.exportGroups.flatMap (·.hits loginList.toList (.ofText loginList.toList)) =
      [⟨"login", .var, 1, true⟩] := by
  have groups : javaScript.exportGroups = [.nameList exportListPattern identifierPattern] := rfl
  rw [groups, exportListPattern, identifierPattern, Pattern.ofText_eq rfl, Pattern.ofText_eq rfl]
  decide +kernel

theorem listed_names_told_login :
    ∃ x ∈ javaScript.exportGroups.flatMap (·.hits loginList.toList (.ofText loginList.toList)),
      ∃ before inside behind, Listed loginList.toList x.name.toList before inside behind ∧
        x.line = before.count '\n' + 1 ∧
        (∃ line : Ripple.Line, line.Of loginList.toList ∧
          line.number = x.line + inside.count '\n' ∧ x.name.toList <:+: line.content) ∧
        ('\n' ∉ inside → x.Stands loginList.toList) := by
  have hit : ⟨"login", .var, 1, true⟩ ∈
      javaScript.exportGroups.flatMap (·.hits loginList.toList (.ofText loginList.toList)) := by
    rw [hits_loginList]
    exact List.mem_singleton_self _
  exact ⟨_, hit, (listed_names_told_with_opening_line loginList hit).2⟩

theorem rules_loginList :
    rules.flatMap (·.hits loginList.toList (.ofText loginList.toList)) = [] := by
  refine List.flatMap_eq_nil_iff.mpr (List.forall_mem_cons.mpr ⟨?_, List.forall_mem_cons.mpr ⟨?_,
    List.forall_mem_cons.mpr ⟨?_, List.forall_mem_cons.mpr ⟨?_, List.forall_mem_singleton.mpr ?_⟩⟩⟩⟩)
  · rw [functionRule, functionPattern, Pattern.ofText_eq (Pattern.joined rfl rfl)]
    decide +kernel
  · rw [classRule, classPattern, Pattern.ofText_eq (Pattern.joined rfl rfl)]
    decide +kernel
  · rw [typeRule, typePattern, Pattern.ofText_eq (Pattern.joined rfl rfl)]
    decide +kernel
  · rw [constantRule, constantPattern, Pattern.ofText_eq rfl]
    decide +kernel
  · rw [variableRule, variablePattern, Pattern.ofText_eq rfl]
    decide +kernel

/-- A name that is told with a line on which it does not stand. -/
theorem listed_name_off_its_line :
    javaScript.exports? loginList = some [⟨"login", .var, 1, true⟩] ∧
      ¬ (⟨"login", .var, 1, true⟩ : Export).Stands loginList.toList := by
  constructor
  · rw [exports?, exportRules_eq, Option.map_some, exportHits, rules_loginList, hits_loginList,
      List.nil_append, Export.inLineOrder, List.mergeSort_singleton]
  · have absent : (Ripple.Line.all loginList.toList).all (fun line => line.number != 1 ||
        !contains "login".toList line.content) = true := by decide +kernel
    rintro ⟨line, isLine, number, inside⟩
    have first := List.all_eq_true.mp absent line (Ripple.Line.mem_all_iff.mpr isLine)
    have named : contains "login".toList line.content = true := contains_iff.mpr inside
    rw [number, named] at first
    contradiction

end Language.JavaScript

end Ripple
