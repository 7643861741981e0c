import Ripple.Proofs.Language.ExportNames
import Ripple.Proofs.Regex.Joining

/-!
Declarations line by line. Rules whose patterns keep to a line declare in whole lines and more text
what they declare in the lines, followed by what they declare in the text, as many lines further
down. The rules find the symbols of the two parts by turns, and the order of the lines parts them.
-/

namespace Ripple

open Point

namespace Export

/-- A symbol that is declared some lines further down. -/
def down (lines : Nat) (x : Export) : Export := { x with line := x.line + lines }

/-- The symbols behind a line are one line further down. -/
theorem flatMap_zipIdx_cons {α : Type} (symbols : α → List Export) (a : α) (lines : List α) :
    ((a :: lines).zipIdx.flatMap fun e => (symbols e.1).map (down e.2)) =
      symbols a ++ (lines.zipIdx.flatMap fun e => (symbols e.1).map (down e.2)).map (down 1) := by
  have here : (symbols a).map (down 0) = symbols a := List.map_id _
  rw [List.zipIdx_cons, List.flatMap_cons, here, List.zipIdx_succ, List.flatMap_map, List.map_flatMap]
  simp only [List.map_map]
  rfl

/-- The symbols of a line. -/
def onLine (line : Nat) (symbols : List Export) : List Export :=
  symbols.filter fun x => x.line = line

theorem mem_onLine {line : Nat} {symbols : List Export} {x : Export} :
    x ∈ onLine line symbols ↔ x ∈ symbols ∧ x.line = line := by
  simp [onLine]

theorem inLineOrder_ascends (symbols : List Export) :
    (inLineOrder symbols).Pairwise fun a b => a.line ≤ b.line := by
  have sorted := @List.pairwise_mergeSort Export (fun a b => decide (a.line ≤ b.line))
    (fun a b c => by simpa using Nat.le_trans) (fun a b => by simpa using Nat.le_total _ _) symbols
  exact sorted.imp of_decide_eq_true

theorem inLineOrder_perm (symbols : List Export) : (inLineOrder symbols).Perm symbols :=
  List.mergeSort_perm _ _

/-- Symbols of one line keep their order. -/
theorem onLine_inLineOrder (line : Nat) (symbols : List Export) :
    onLine line (inLineOrder symbols) = onLine line symbols := by
  apply filter_mergeSort_of_level
  · exact fun a b c => by simpa using Nat.le_trans
  · exact fun a b => by simpa using Nat.le_total _ _
  · intro a b here there
    simp only [decide_eq_true_eq] at here there ⊢
    exact Nat.le_of_eq (here.trans there.symm)

theorem mem_iff_of_onLine {xs ys : List Export} (same : ∀ line, onLine line xs = onLine line ys)
    (x : Export) : x ∈ xs ↔ x ∈ ys := by
  have here : x ∈ onLine x.line xs ↔ x ∈ onLine x.line ys := by rw [same]
  simpa [mem_onLine] using here

/-- Lists in the order of lines are equal if they have the same symbols on each line. -/
theorem eq_of_onLine {xs ys : List Export} (sortedX : xs.Pairwise fun a b => a.line ≤ b.line)
    (sortedY : ys.Pairwise fun a b => a.line ≤ b.line)
    (same : ∀ line, onLine line xs = onLine line ys) : xs = ys := by
  have members := mem_iff_of_onLine same
  induction xs generalizing ys with
  | nil =>
    cases ys with
    | nil => rfl
    | cons y ys => exact absurd ((members y).mpr List.mem_cons_self) List.not_mem_nil
  | cons x xs ih =>
    cases ys with
    | nil => exact absurd ((members x).mp List.mem_cons_self) List.not_mem_nil
    | cons y ys =>
      obtain ⟨belowX, restX⟩ := List.pairwise_cons.mp sortedX
      obtain ⟨belowY, restY⟩ := List.pairwise_cons.mp sortedY
      -- The first symbols are on the first line of either list, and the first ones there.
      have lines : x.line = y.line := by
        apply Nat.le_antisymm
        · rcases List.mem_cons.mp ((members y).mpr List.mem_cons_self) with rfl | later
          · exact Nat.le_refl _
          · exact belowX y later
        · rcases List.mem_cons.mp ((members x).mp List.mem_cons_self) with rfl | later
          · exact Nat.le_refl _
          · exact belowY x later
      have first : x = y := by
        have level := same x.line
        simp only [onLine, lines, decide_true, List.filter_cons_of_pos, List.cons.injEq] at level
        exact level.1
      have rest : ∀ line, onLine line xs = onLine line ys := by
        intro line
        have level := same line
        simp only [onLine, List.filter_cons, first] at level
        split at level
        · exact (List.cons.inj level).2
        · exact level
      rw [first, ih restX restY rest (mem_iff_of_onLine rest)]

theorem onLine_append (line : Nat) (xs ys : List Export) :
    onLine line (xs ++ ys) = onLine line xs ++ onLine line ys := by
  simp [onLine]

theorem onLine_flatMap {α : Type} (line : Nat) (as : List α) (f : α → List Export) :
    onLine line (as.flatMap f) = as.flatMap fun a => onLine line (f a) := by
  simp [onLine, List.filter_flatMap]

theorem onLine_eq_nil {line : Nat} {xs : List Export} (other : ∀ x ∈ xs, x.line ≠ line) :
    onLine line xs = [] := by
  simpa [onLine] using other

theorem onLine_down (line lines : Nat) (xs : List Export) :
    onLine (line + lines) (xs.map (down lines)) = (onLine line xs).map (down lines) := by
  simp [onLine, List.filter_map, Function.comp_def, down]

/-- Symbols that are found by turns in two parts of a text are parted by the order of the lines. -/
theorem inLineOrder_flatMap {α : Type} {as : List α} {whole first second : α → List Export}
    {lines : Nat} (found : ∀ a ∈ as, whole a = first a ++ (second a).map (down lines))
    (above : ∀ a ∈ as, ∀ x ∈ first a, x.line ≤ lines) (below : ∀ a ∈ as, ∀ x ∈ second a, 0 < x.line) :
    inLineOrder (as.flatMap whole) =
      inLineOrder (as.flatMap first) ++ (inLineOrder (as.flatMap second)).map (down lines) := by
  have firsts : ∀ x ∈ inLineOrder (as.flatMap first), x.line ≤ lines := by
    intro x member
    obtain ⟨a, listed, here⟩ := List.mem_flatMap.mp ((inLineOrder_perm _).mem_iff.mp member)
    exact above a listed x here
  have seconds : ∀ x ∈ (inLineOrder (as.flatMap second)).map (down lines), lines < x.line := by
    intro x member
    obtain ⟨y, sorted, rfl⟩ := List.mem_map.mp member
    obtain ⟨a, listed, here⟩ := List.mem_flatMap.mp ((inLineOrder_perm _).mem_iff.mp sorted)
    exact Nat.lt_add_of_pos_left (below a listed y here)
  apply eq_of_onLine (inLineOrder_ascends _)
  · refine List.pairwise_append.mpr ⟨inLineOrder_ascends _, ?_, fun x here y there => ?_⟩
    · exact List.pairwise_map.mpr ((inLineOrder_ascends _).imp fun le => Nat.add_le_add_right le lines)
    · exact Nat.le_of_lt (Nat.lt_of_le_of_lt (firsts x here) (seconds y there))
  · intro line
    rw [onLine_inLineOrder, onLine_append, onLine_flatMap]
    rcases Nat.lt_or_ge lines line with later | earlier
    · -- The line is one of the second part.
      obtain ⟨line, rfl⟩ : ∃ n, line = n + lines := ⟨line - lines, by omega⟩
      rw [onLine_eq_nil fun x member => by have := firsts x member; omega, List.nil_append,
        onLine_down, onLine_inLineOrder, onLine_flatMap, List.map_flatMap]
      refine List.flatMap_congr fun a listed => ?_
      rw [found a listed, onLine_append, onLine_down,
        onLine_eq_nil fun x member => by have := above a listed x member; omega, List.nil_append]
    · rw [onLine_inLineOrder, onLine_flatMap, onLine_eq_nil fun x member => by
        have := seconds x member; omega, List.append_nil]
      refine List.flatMap_congr fun a listed => ?_
      rw [found a listed, onLine_append]
      refine (congrArg _ (onLine_eq_nil fun x member => ?_)).trans (List.append_nil _)
      obtain ⟨y, here, rfl⟩ := List.mem_map.mp member
      have := below a listed y here
      simp only [down]
      omega

end Export

theorem Pattern.group?_map (p : Pattern) (f : Point → Point) (m : Match) (name : String) :
    p.group? (m.map f) name = (p.group? m name).map fun g => (f g.1, f g.2) := by
  rw [Pattern.group?, Pattern.group?]
  cases p.groupIndex? name with
  | none => rfl
  | some i => exact m.group?_map f i

theorem Pattern.group?_inside {p : Pattern} {text : List Char} {m : Match}
    (found : m ∈ p.matchesOf text) {name : String} {s e : Point}
    (group : p.group? m name = some (s, e)) : s.In text ∧ e.In text := by
  obtain ⟨i, _, group⟩ := Option.bind_eq_some_iff.mp group
  exact Regex.group?_inside found group

namespace ExportRule

theorem symbol?_append {rule : ExportRule} {front : List Char} {m : Match}
    (found : m ∈ rule.pattern.matchesOf front) (back : List Char) :
    rule.symbol? (.ofText (front ++ back)) (m.map (.append back)) =
      rule.symbol? (.ofText front) m := by
  have inside : ∀ {name : String} {s e : Point}, rule.pattern.group? m name = some (s, e) →
      s.In front ∧ e.In front := Pattern.group?_inside found
  -- More text behind the match changes neither what its groups hold nor their lines.
  have modifiers : ((rule.pattern.group? m "vis").map fun g => (g.1.append back, g.2.append back)).map
      (fun g => g.1.charsTo g.2) = (rule.pattern.group? m "vis").map fun g => g.1.charsTo g.2 := by
    cases group : rule.pattern.group? m "vis" with
    | none => rfl
    | some g =>
      obtain ⟨first, second⟩ := inside group
      exact congrArg some (charsTo_append first second back)
  rw [symbol?, symbol?, Pattern.group?_map, Pattern.group?_map, modifiers]
  cases group : rule.pattern.group? m "name" with
  | none => rfl
  | some g =>
    obtain ⟨first, second⟩ := inside group
    have line : (LineIndex.ofText (front ++ back)).lineOf (g.1.append back).offset =
        (LineIndex.ofText front).lineOf g.1.offset := by
      obtain ⟨w, reads⟩ := first
      have reads' : (start (front ++ back)).Reads w (g.1.append back) := reads.append back
      rw [lineOf_offset reads, lineOf_offset reads']
    simp only [Option.map_some, charsTo_append first second back, line]

theorem symbol?_prepend {rule : ExportRule} {back : List Char} {m : Match}
    (found : m ∈ rule.pattern.matchesOf back) (front : List Char) :
    rule.symbol? (.ofText (front ++ back)) (m.map (.prepend front)) =
      (rule.symbol? (.ofText back) m).map (.down (front.count '\n')) := by
  have modifiers : ((rule.pattern.group? m "vis").map fun g => (g.1.prepend front, g.2.prepend front)).map
      (fun g => g.1.charsTo g.2) = (rule.pattern.group? m "vis").map fun g => g.1.charsTo g.2 := by
    simp [Function.comp_def, charsTo_prepend]
  rw [symbol?, symbol?, Pattern.group?_map, Pattern.group?_map, modifiers]
  cases group : rule.pattern.group? m "name" with
  | none => rfl
  | some g =>
    have line : (LineIndex.ofText (front ++ back)).lineOf (g.1.prepend front).offset =
        (LineIndex.ofText back).lineOf g.1.offset + front.count '\n' := by
      obtain ⟨w, reads⟩ := (Pattern.group?_inside found group).1
      rw [lineOf_offset reads, lineOf_offset (reads_prepend reads front), List.count_append]
      omega
    simp only [Option.map_some, charsTo_prepend, line, Export.down]

/-- Whether a rule declares each symbol on a line of its own accord: its pattern keeps to a line, and
the name is not empty. -/
def linewise (rule : ExportRule) : Bool :=
  rule.pattern.regex.joins && rule.pattern.groupPasses "name" fun part => !part.nullable

variable {rule : ExportRule} (linewise : rule.linewise = true)

include linewise

theorem linewise_joins : rule.pattern.regex.joins = true := (Bool.and_eq_true_iff.mp linewise).1

theorem linewise_steady : rule.pattern.regex.steady = true :=
  (Regex.joins_iff.mp (linewise_joins linewise)).1

/-- A rule finds in whole lines and more text what it finds in the lines, and then what it finds in
the text. -/
theorem hits_append {front : List Char} (whole : Text.WholeLines front) (back : List Char) :
    rule.hits (front ++ back) (.ofText (front ++ back)) = rule.hits front (.ofText front) ++
      (rule.hits back (.ofText back)).map (.down (front.count '\n')) := by
  have found : rule.pattern.matchesOf (front ++ back) =
      (rule.pattern.matchesOf front).map (.map (.append back)) ++
        (rule.pattern.matchesOf back).map (.map (.prepend front)) :=
    Regex.matchesOf_append whole (linewise_joins linewise)
  rw [hits, hits, hits, found, List.filterMap_append, List.filterMap_map, List.filterMap_map,
    List.map_filterMap]
  congr 1
  · exact List.filterMap_congr fun m found => symbol?_append found back
  · exact List.filterMap_congr fun m found => symbol?_prepend found front

/-- A symbol is on a line, and some text of the line is not yet read before it. -/
theorem line_of_hit {text : List Char} {x : Export} (hit : x ∈ rule.hits text (.ofText text)) :
    ∃ w rest, text = w ++ rest ∧ rest ≠ [] ∧ x.line = w.count '\n' + 1 := by
  obtain ⟨m, s, e, found, group, _, number⟩ := mem_hits hit
  obtain ⟨o, _, preferred⟩ := Regex.mem_matchesOf (linewise_steady linewise) found
  obtain ⟨part, consumes, takes⟩ :=
    Pattern.exists_part (Bool.and_eq_true_iff.mp linewise).2 preferred group
  obtain ⟨w, reads⟩ := (Pattern.group?_inside found group).1
  refine ⟨w, s.rest, reads.rest_eq, fun empty => ?_, number.trans (lineOf_offset reads)⟩
  have shorter := takes.rest_lt (Bool.not_eq_true' _ ▸ consumes)
  simp [empty] at shorter

theorem line_le_of_hit {lines : List Char} (whole : Text.WholeLines lines) {x : Export}
    (hit : x ∈ rule.hits lines (.ofText lines)) : x.line ≤ lines.count '\n' := by
  obtain ⟨w, rest, text, some, line⟩ := line_of_hit linewise hit
  rcases whole with rfl | ⟨front, rfl⟩
  · simp [some] at text
  · -- The line feed at the end is not yet read either.
    have last : rest.getLast? = Option.some '\n' := by
      rw [← List.getLast?_append_of_ne_nil w some, ← text, List.getLast?_concat]
    obtain ⟨before, rfl⟩ := List.getLast?_eq_some_iff.mp last
    rw [line, text]
    simp

/-- What is found in a line is on its first line. -/
theorem line_of_line {line text : List Char} (isLine : Text.IsLine line text) {x : Export}
    (hit : x ∈ rule.hits text (.ofText text)) : x.line = 1 := by
  obtain ⟨single, shape⟩ := isLine
  obtain ⟨w, rest, cut, some, number⟩ := line_of_hit linewise hit
  have plain : '\n' ∉ w := by
    rcases shape with rfl | rfl
    · exact fun feed => single (by simp [cut, feed])
    · obtain ⟨front, last, rfl⟩ := List.eq_nil_or_concat' rest |>.resolve_left some
      rw [← List.append_assoc] at cut
      have same := (List.append_inj' cut rfl).1
      exact fun feed => single (by simp [same, feed])
  rw [number, List.count_eq_zero.mpr plain]

end ExportRule

namespace Language

/-- The symbols that rules declare in a text, in the order of their lines. -/
def declared (rules : List ExportRule) (text : List Char) : List Export :=
  Export.inLineOrder (rules.flatMap fun rule => rule.hits text (.ofText text))

theorem declared_append {rules : List ExportRule} (linewise : ∀ rule ∈ rules, rule.linewise = true)
    {front : List Char} (whole : Text.WholeLines front) (back : List Char) :
    declared rules (front ++ back) =
      declared rules front ++ (declared rules back).map (.down (front.count '\n')) := by
  apply Export.inLineOrder_flatMap
  · exact fun rule listed => ExportRule.hits_append (linewise rule listed) whole back
  · exact fun rule listed x hit => ExportRule.line_le_of_hit (linewise rule listed) whole hit
  · intro rule listed x hit
    obtain ⟨w, rest, _, _, line⟩ := ExportRule.line_of_hit (linewise rule listed) hit
    rw [line]
    exact Nat.succ_pos _

theorem declared_of_hits {rules : List ExportRule} {text : List Char} {symbol? : Option Export}
    (hits : (rules.flatMap fun rule => rule.hits text (.ofText text)) = symbol?.toList) :
    declared rules text = symbol?.toList := by
  rw [declared, hits, Export.inLineOrder]
  cases symbol? with
  | none => exact List.mergeSort_nil
  | some x => exact List.mergeSort_singleton x

theorem declared_nil {rules : List ExportRule} (linewise : ∀ rule ∈ rules, rule.linewise = true) :
    declared rules [] = [] := by
  apply List.eq_nil_iff_forall_not_mem.mpr
  intro x member
  obtain ⟨rule, listed, hit⟩ := List.mem_flatMap.mp ((Export.inLineOrder_perm _).mem_iff.mp member)
  obtain ⟨w, rest, text, some, _⟩ := ExportRule.line_of_hit (linewise rule listed) hit
  exact some (List.append_eq_nil_iff.mp text.symm).2

/-- What is declared in lines is what is declared in each of them. -/
theorem declared_lines {rules : List ExportRule} (linewise : ∀ rule ∈ rules, rule.linewise = true)
    {α : Type} {lines : List α} {chars : α → List Char} {symbols : α → List Export}
    (each : ∀ a ∈ lines, ∀ text, Text.IsLine (chars a) text → declared rules text = symbols a)
    (single : ∀ a ∈ lines, '\n' ∉ chars a) :
    declared rules (['\n'].intercalate (lines.map chars)) =
      lines.zipIdx.flatMap fun e => (symbols e.1).map (.down e.2) := by
  induction lines with
  | nil => exact declared_nil linewise
  | cons a lines ih =>
    obtain ⟨here, later⟩ := List.forall_mem_cons.mp each
    obtain ⟨plain, singles⟩ := List.forall_mem_cons.mp single
    rw [Export.flatMap_zipIdx_cons]
    -- Only the last line has no line feed behind it.
    cases lines with
    | nil => simp [here _ ⟨plain, .inl rfl⟩]
    | cons b lines =>
      have cut : ['\n'].intercalate ((a :: b :: lines).map chars) =
          (chars a ++ ['\n']) ++ ['\n'].intercalate ((b :: lines).map chars) := by
        simp
      have feeds : (chars a ++ ['\n']).count '\n' = 1 := by
        simp [List.count_eq_zero.mpr plain]
      rw [cut, declared_append linewise (.inr ⟨_, rfl⟩), here _ ⟨plain, .inr rfl⟩,
        ih later singles, feeds]

/-- Rules alone tell the symbols where no form finds any. -/
theorem exports?_eq_declared {l : Language} {rules : List ExportRule} (given : l.exportRules = some rules)
    {source : String}
    (none : ∀ group ∈ l.exportGroups, group.hits source.toList (.ofText source.toList) = []) :
    l.exports? source = some (declared rules source.toList) := by
  have nothing : l.exportGroups.flatMap (·.hits source.toList (.ofText source.toList)) = [] :=
    List.flatMap_eq_nil_iff.mpr none
  rw [exports?, given, Option.map_some, exportHits, nothing, List.append_nil]
  rfl

theorem toList_lines {α : Type} (lines : List α) (chars : α → List Char) :
    (Text.join "\n" (lines.map fun a => String.ofList (chars a))).toList =
      ['\n'].intercalate (lines.map chars) := by
  rw [Text.join, String.toList_intercalate, List.map_map]
  simp [Function.comp_def]

/-- Lines that declare a symbol each, or none, declare these symbols in their order. -/
theorem exports?_of_each {l : Language} {rules : List ExportRule} (given : l.exportRules = some rules)
    (linewise : ∀ rule ∈ rules, rule.linewise = true) {α : Type} {lines : List α}
    {chars : α → List Char} (symbol? : α → Nat → Option Export)
    (numbered : ∀ a n, symbol? a (n + 1) = (symbol? a 1).map (.down n))
    (single : ∀ a, '\n' ∉ chars a)
    (each : ∀ a text, Text.IsLine (chars a) text → declared rules text = (symbol? a 1).toList)
    (none : ∀ group ∈ l.exportGroups, group.hits (['\n'].intercalate (lines.map chars))
      (.ofText (['\n'].intercalate (lines.map chars))) = []) :
    l.exports? (Text.join "\n" (lines.map fun a => String.ofList (chars a))) =
      some (lines.zipIdx.filterMap fun e => symbol? e.1 (e.2 + 1)) := by
  have found : declared rules (['\n'].intercalate (lines.map chars)) =
      lines.zipIdx.flatMap fun e => (symbol? e.1 1).toList.map (.down e.2) :=
    declared_lines linewise (fun a _ => each a) fun a _ => single a
  rw [exports?_eq_declared given (by rwa [toList_lines]), toList_lines, found,
    List.filterMap_eq_flatMap_toList]
  refine congrArg some (List.flatMap_congr fun e _ => ?_)
  rw [numbered e.1 e.2, Option.toList_map]

end Language

theorem ExportRule.linewise_ofText {source : String} {cs : List Char} {kind : SymbolKind}
    {visibility : Visibility} (text : source = String.ofList cs)
    (checked : linewise ⟨.ofChars source cs, kind, visibility⟩ = true) :
    linewise ⟨.ofText source, kind, visibility⟩ = true := by
  rwa [Pattern.ofText_eq text]

namespace Language

open List Pattern

theorem python_linewise : ∀ rules ∈ python.exportRules, ∀ rule ∈ rules, rule.linewise = true := by
  rintro _ ⟨⟩
  refine forall_mem_cons.mpr ⟨?_, forall_mem_cons.mpr ⟨?_, forall_mem_singleton.mpr ?_⟩⟩
  · exact ExportRule.linewise_ofText rfl rfl
  · exact ExportRule.linewise_ofText rfl rfl
  · exact ExportRule.linewise_ofText rfl rfl

theorem java_linewise : ∀ rules ∈ java.exportRules, ∀ rule ∈ rules, rule.linewise = true := by
  rintro _ ⟨⟩
  refine forall_mem_cons.mpr ⟨?_, forall_mem_cons.mpr ⟨?_, forall_mem_singleton.mpr ?_⟩⟩
  · exact ExportRule.linewise_ofText (joined rfl rfl) (by decide +kernel)
  · exact ExportRule.linewise_ofText (joined (joined rfl rfl) rfl) (by decide +kernel)
  · exact ExportRule.linewise_ofText (joined rfl rfl) (by decide +kernel)

/-- Python and Java declare in whole lines and more text what they declare in the lines, and then
what they declare in the text, as many lines further down as there are lines. -/
theorem exports?_of_wholeLines {l : Language} (member : l ∈ [python, java]) {front : String}
    (whole : Text.WholeLines front.toList) (back : String) :
    ∃ first second, l.exports? front = some first ∧ l.exports? back = some second ∧
      l.exports? (front ++ back) =
        some (first ++ second.map (.down (front.toList.count '\n'))) := by
  obtain ⟨rules, given, linewise, none⟩ : ∃ rules, l.exportRules = some rules ∧
      (∀ rule ∈ rules, rule.linewise = true) ∧ l.exportGroups = [] := by
    rcases mem_pair.mp member with rfl | rfl
    · exact ⟨_, rfl, python_linewise _ rfl, rfl⟩
    · exact ⟨_, rfl, java_linewise _ rfl, rfl⟩
  have symbols : ∀ source : String, l.exports? source = some (declared rules source.toList) :=
    fun source => exports?_eq_declared given (by simp [none])
  refine ⟨_, _, symbols front, symbols back, ?_⟩
  rw [symbols, String.toList_append, declared_append linewise whole]

/-- An assignment reads the character behind its sign, which here is the end of the first part. -/
theorem exports?_of_wholeLines_constant :
    Text.WholeLines "LIMIT =\n".toList ∧
      ∃ first second, python.exports? "LIMIT =\n" = some first ∧
        python.exports? "class Box:\n" = some second ∧
        python.exports? ("LIMIT =\n" ++ "class Box:\n") = some (first ++ second.map (.down 1)) :=
  have whole : Text.WholeLines "LIMIT =\n".toList := .inr ⟨"LIMIT =".toList, by decide⟩
  ⟨whole, @exports?_of_wholeLines python mem_cons_self "LIMIT =\n" whole "class Box:\n"⟩

end Language

end Ripple
