import Ripple.Language.Extract
import Ripple.Proofs.Regex.LineEnds

/-!
Extraction and line ends. A rule whose patterns are settled finds the same declarations, modules and
lines of imports whichever way the lines of a source end. Names hold no line end; where a block or a
list of names goes over several lines, its pieces are compared one by one.
-/

namespace Ripple

open Point Text

section Lists

variable {α β γ : Type} {R : α → β → Prop} {as : List α} {bs : List β}

theorem flatMap_eq_of_forall₂ {f : α → List γ} {g : β → List γ} (related : List.Forall₂ R as bs)
    (each : ∀ a ∈ as, ∀ b, R a b → g b = f a) : bs.flatMap g = as.flatMap f := by
  induction related with
  | nil => rfl
  | @cons a b as bs first _ ih =>
    simp only [List.mem_cons, forall_eq_or_imp] at each
    rw [List.flatMap_cons, List.flatMap_cons, each.1 b first, ih each.2]

theorem filterMap_eq_of_forall₂ {f : α → Option γ} {g : β → Option γ}
    (related : List.Forall₂ R as bs) (each : ∀ a ∈ as, ∀ b, R a b → g b = f a) :
    bs.filterMap g = as.filterMap f := by
  induction related with
  | nil => rfl
  | @cons a b as bs first _ ih =>
    simp only [List.mem_cons, forall_eq_or_imp] at each
    rw [List.filterMap_cons, List.filterMap_cons, each.1 b first, ih each.2]

end Lists

theorem Point.Shifts.lineOf {text : List Char} {p q : Point} (shifts : p.Shifts text q) :
    (LineIndex.ofText (crlf text)).lineOf q.offset = (LineIndex.ofText text).lineOf p.offset := by
  obtain ⟨w, reads, reads'⟩ := shifts
  have whole : text = w ++ p.rest := reads.rest_eq
  have same := LineIndex.lineOf_crlf w p.rest
  rw [← whole] at same
  simpa [reads.offset_eq, reads'.offset_eq, Point.start] using same

namespace Pattern

/-- Whether a named group of a pattern reads no line feed. -/
def spares (p : Pattern) (group : String) : Bool :=
  (p.groupIndex? group).all fun i => p.regex.groupAvoids i '\n'

variable {text : List Char} {m n : Match}

theorem group?_rel (p : Pattern) (near : m.Near text n) (group : String) :
    Option.Rel (fun g h => g.1.Shifts text h.1 ∧ g.2.Shifts text h.2)
      (p.group? m group) (p.group? n group) := by
  rw [Pattern.group?, Pattern.group?]
  cases p.groupIndex? group with
  | none => exact .none
  | some i => exact Regex.group?_rel near i

theorem group?_spared {p : Pattern} {group : String} (spares : p.spares group = true) {o : Point}
    (preferred : p.regex.preferred? o = some m) (near : m.Near text n) :
    Option.Rel (fun g h => g.1.Shifts text h.1 ∧ h.1.charsTo h.2 = g.1.charsTo g.2)
      (p.group? m group) (p.group? n group) := by
  rw [Pattern.spares] at spares
  rw [Pattern.group?, Pattern.group?]
  cases index : p.groupIndex? group with
  | none => exact .none
  | some i =>
    rw [index] at spares
    exact Regex.group?_spared spares preferred near

end Pattern

namespace ExportRule

/-- Whether a visibility asks for some word, if for any. -/
def namesWord : Visibility → Bool
  | .modifier word => word ≠ ""
  | _ => true

theorem isPublic_crlf {v : Visibility} (fine : namesWord v = true) (name : List Char)
    (vis : Option (List Char)) : v.isPublic name (vis.map crlf) = v.isPublic name vis := by
  cases v with
  | modifier word =>
    have some : word.toList ≠ [] := by simpa [namesWord] using fine
    cases vis with
    | none => rfl
    | some text =>
      rw [Bool.eq_iff_iff]
      simp only [Visibility.isPublic, Option.map_some, Option.any_some, List.contains_iff_mem]
      exact mem_splitBy_crlf_iff (by decide +kernel) (by decide +kernel) text some
  | _ => rfl

def settled (rule : ExportRule) : Bool :=
  rule.pattern.regex.nearlySettled && rule.pattern.spares "name" && namesWord rule.visibility

theorem hits_crlf {rule : ExportRule} (settled : rule.settled = true) (text : List Char) :
    rule.hits (crlf text) (.ofText (crlf text)) = rule.hits text (.ofText text) := by
  simp only [ExportRule.settled, Bool.and_eq_true] at settled
  obtain ⟨⟨nearly, spares⟩, word⟩ := settled
  have steady := (Regex.nearlySettled_iff.mp nearly).1
  refine filterMap_eq_of_forall₂ (Regex.matchesOf_near nearly text) fun m found n near => ?_
  obtain ⟨o, _, preferred⟩ := Regex.mem_matchesOf steady found
  have modifiers : (rule.pattern.group? n "vis").map (fun g => g.1.charsTo g.2) =
      ((rule.pattern.group? m "vis").map fun g => g.1.charsTo g.2).map crlf := by
    rcases rel_cases (rule.pattern.group?_rel near "vis") with
      ⟨first, second⟩ | ⟨g, h, first, second, begins, ends⟩
    · rw [first, second]
      rfl
    · rw [first, second]
      exact congrArg some (begins.charsTo ends)
  rw [symbol?, symbol?, modifiers]
  rcases rel_cases (Pattern.group?_spared spares preferred near) with
    ⟨first, second⟩ | ⟨g, h, first, second, begins, same⟩
  · rw [first, second]
    rfl
  · simp only [first, second, Option.map_some, same, begins.lineOf, isPublic_crlf word]

end ExportRule

namespace Regex

/-- Whether an expression begins by asking for the beginning of the text. -/
def opensText : Regex → Bool
  | assert .textStart => true
  | seq r _ => r.opensText
  | _ => false

/-- Whether an expression ends by asking for the end of the text. -/
def closesText : Regex → Bool
  | assert .textEnd => true
  | seq _ s => s.closesText
  | _ => false

theorem Takes.opensText {r : Regex} (opens : r.opensText = true) {p q : Point}
    (takes : r.Takes p q) : p.before = none := by
  fun_induction Regex.opensText r generalizing q with
  | case1 => simpa [Takes, Assertion.holds] using takes.1
  | case2 r s ih =>
    obtain ⟨o, first, _⟩ := takes
    exact ih opens first
  | case3 => contradiction

theorem Takes.closesText {r : Regex} (closes : r.closesText = true) {p q : Point}
    (takes : r.Takes p q) : q.rest = [] := by
  fun_induction Regex.closesText r generalizing p with
  | case1 =>
    obtain ⟨holds, rfl⟩ := takes
    simpa [Assertion.holds] using holds
  | case2 r s ih =>
    obtain ⟨o, _, second⟩ := takes
    exact ih closes second
  | case3 => contradiction

/-- An expression that asks for both ends of the text leads over all of it. -/
theorem exists_takes_whole {r : Regex} (steady : r.steady = true) (opens : r.opensText = true)
    (closes : r.closesText = true) {text : List Char} (matched : r.matchesIn text = true) :
    ∃ q, r.Takes (.start text) q ∧ (Point.start text).Reads text q := by
  obtain ⟨p, q, ⟨u, before⟩, takes⟩ := (matchesIn_iff steady).mp matched
  obtain rfl : u = [] := by
    rcases List.eq_nil_or_concat' u with none | ⟨v, d, rfl⟩
    · exact none
    · have behind := before.before_eq
      rw [takes.opensText opens] at behind
      contradiction
  obtain rfl := Point.reads_nil.mp before
  obtain ⟨w, reads, _⟩ := takes.reads
  have whole := reads.rest_eq
  rw [takes.closesText closes, List.append_nil] at whole
  obtain rfl : text = w := whole
  exact ⟨q, takes, reads⟩

/-- A text that is matched as a whole is without the characters that are not read. -/
theorem not_mem_of_matchesIn {r : Regex} {c : Char} (steady : r.steady = true)
    (opens : r.opensText = true) (closes : r.closesText = true) (avoids : r.avoids c = true)
    {text : List Char} (matched : r.matchesIn text = true) : c ∉ text := by
  obtain ⟨q, takes, whole⟩ := exists_takes_whole steady opens closes matched
  obtain ⟨w, reads, absent⟩ := takes.avoids avoids
  rwa [whole.chars_unique reads]

end Regex

/-- The characters between two points stand right behind the first one. -/
theorem Point.exists_rest_eq (p q : Point) : ∃ after, p.rest = p.charsTo q ++ after := by
  have taken : ∀ (cs : List Char) (bytes : Nat) (done : List Char),
      ∃ k, takeBytes cs bytes done = (cs.take k).reverse ++ done := by
    intro cs
    induction cs with
    | nil => exact fun bytes done => ⟨0, rfl⟩
    | cons c cs ih =>
      intro bytes done
      rw [takeBytes]
      split
      · exact ⟨0, rfl⟩
      · obtain ⟨k, shape⟩ := ih (bytes - c.utf8Size) (c :: done)
        exact ⟨k + 1, by simp [shape]⟩
  obtain ⟨k, shape⟩ := taken p.rest (q.offset - p.offset) []
  refine ⟨p.rest.drop k, ?_⟩
  rw [charsTo, shape]
  simp

namespace ExportGroup

def settled : ExportGroup → Bool
  | nameList pattern identifier =>
    pattern.regex.settled && identifier.regex.settled && identifier.regex.opensText &&
      identifier.regex.closesText && identifier.regex.avoids '\n'
  | block pattern entry =>
    pattern.regex.settled && pattern.spares "kw" && entry.regex.settled && entry.spares "names"

theorem foldl_size (line : List Char) (offset : Nat) :
    line.foldl (fun bytes c => bytes + c.utf8Size) offset = offset + size line := by
  induction line generalizing offset with
  | nil => rfl
  | cons c line ih => rw [List.foldl_cons, ih, size_cons, Nat.add_assoc]

theorem foldl_depth_crlf (line : List Char) (depth : Int) :
    (crlf line).foldl (fun level c => level + depthOf c) depth =
      line.foldl (fun level c => level + depthOf c) depth := by
  have ends : depthOf '\r' = 0 ∧ depthOf '\n' = 0 := by decide
  induction line generalizing depth with
  | nil => rfl
  | cons c line ih =>
    by_cases isFeed : c = '\n'
    · subst isFeed
      simp only [crlf_feed, List.foldl_cons, ih, ends.1, Int.add_zero]
    · rw [crlf_cons isFeed, List.foldl_cons, List.foldl_cons, ih]

section Block

variable {entry : Pattern} (settled : entry.regex.settled = true)
  (spares : entry.spares "names" = true)

include settled spares

/-- An entry declares the same names, and they begin at the same place of the line. -/
theorem entryNames_rel (line : List Char) :
    Option.Rel (fun a b => (∃ u v, line = u ++ v ∧ a.1 = size u ∧ b.1 = size (crlf u)) ∧ b.2 = a.2)
      (entryNames entry line) (entryNames entry (crlf line)) := by
  obtain ⟨steady, _, stuck, same⟩ := Regex.settled_iff.mp settled
  rw [entryNames, entryNames]
  rcases rel_cases (Regex.search?_shifts steady stuck same line) with
    ⟨first, second⟩ | ⟨m, n, first, second, shifts⟩
  · rw [first, second]
    exact .none
  · obtain ⟨o, _, preferred⟩ := Regex.search?_preferred steady (start_in line) first
    rw [first, second, Option.bind_some, Option.bind_some]
    rcases rel_cases (Pattern.group?_spared spares preferred shifts.near) with
      ⟨third, fourth⟩ | ⟨g, h, third, fourth, ⟨u, reads, reads'⟩, same⟩
    · rw [third, fourth]
      exact .none
    · rw [third, fourth]
      refine .some ⟨⟨u, g.1.rest, reads.rest_eq, ?_, ?_⟩, ?_⟩
      · simpa [Point.start] using reads.offset_eq
      · simpa [Point.start] using reads'.offset_eq
      · simp only [same]

/-- The lines of a block declare the same symbols. -/
theorem blockHits_crlf (kind : SymbolKind) {text : List Char} (lines : List (List Char))
    {before after : List Char} (whole : text = before ++ (lines.flatten ++ after)) (depth : Int) :
    blockHits entry kind (.ofText (crlf text)) (lines.map crlf) (size (crlf before)) depth =
      blockHits entry kind (.ofText text) lines (size before) depth := by
  induction lines generalizing before depth with
  | nil => rfl
  | cons line lines ih =>
    have further := @ih (before ++ line) (by simpa using whole)
      (line.foldl (fun level c => level + depthOf c) depth)
    rw [crlf_append, size_append, size_append] at further
    rw [List.map_cons, blockHits, blockHits, foldl_size, foldl_size, foldl_depth_crlf, further]
    congr 1
    split
    · rcases rel_cases (entryNames_rel settled spares line) with
        ⟨first, second⟩ | ⟨a, b, first, second, ⟨u, v, shape, start, start'⟩, names⟩
      · rw [first, second]
      · -- The names begin on the same line of the text.
        have split : text = (before ++ u) ++ (v ++ (lines.flatten ++ after)) := by
          rw [whole, shape]
          simp
        have number := LineIndex.lineOf_crlf (before ++ u) (v ++ (lines.flatten ++ after))
        rw [← split, crlf_append, size_append, size_append, ← start, ← start'] at number
        simp only [first, second, names, number]
    · rfl

end Block

theorem hits_crlf {group : ExportGroup} (settled : group.settled = true) (text : List Char) :
    group.hits (crlf text) (.ofText (crlf text)) = group.hits text (.ofText text) := by
  cases group with
  | nameList pattern identifier =>
    simp only [ExportGroup.settled, Bool.and_eq_true] at settled
    obtain ⟨⟨⟨⟨pattern_settled, identifier_settled⟩, opens⟩, closes⟩, avoids⟩ := settled
    obtain ⟨steady, _, stuck, same⟩ := Regex.settled_iff.mp identifier_settled
    refine flatMap_eq_of_forall₂ (Regex.matchesOf_shifts pattern_settled text)
      fun m _ n shifts => ?_
    rcases rel_cases (pattern.group?_rel shifts.near "names") with
      ⟨first, second⟩ | ⟨g, h, first, second, begins, ends⟩
    · simp only [first, second]
    · simp only [first, second, begins.charsTo ends, begins.lineOf]
      rw [splitOn, splitOn, splitBy_crlf (by decide) (by decide), List.filterMap_map]
      refine List.filterMap_congr fun entry _ => ?_
      -- A name with a line end in it is no identifier in either form.
      have name : trim (afterLast " as ".toList (crlf entry)) =
          crlf (trim (afterLast " as ".toList entry)) := by
        rw [afterLast_crlf (by decide) (by decide) (by decide), trim_crlf]
      generalize trim (afterLast " as ".toList entry) = word at name
      have default : crlf word = "default".toList ↔ word = "default".toList :=
        crlf_eq_iff (by decide)
      have matched : identifier.matchesIn (crlf word) = identifier.matchesIn word :=
        Regex.matchesIn_crlf steady stuck same word
      simp only [Function.comp_apply, name, default, matched]
      cases here : identifier.matchesIn word with
      | false => simp
      | true =>
        have single := Regex.not_mem_of_matchesIn steady opens closes avoids here
        rw [crlf_eq_self single]
  | block pattern entry =>
    simp only [ExportGroup.settled, Bool.and_eq_true] at settled
    obtain ⟨⟨⟨pattern_settled, keyword⟩, entry_settled⟩, names⟩ := settled
    have steady := (Regex.settled_iff.mp pattern_settled).1
    refine flatMap_eq_of_forall₂ (Regex.matchesOf_shifts pattern_settled text)
      fun m found n shifts => ?_
    obtain ⟨o, _, preferred⟩ := Regex.mem_matchesOf steady found
    rcases rel_cases (Pattern.group?_spared keyword preferred shifts.near) with
      ⟨first, second⟩ | ⟨kw, kw', first, second, _, same⟩
    · simp only [first, second]
    · rcases rel_cases (pattern.group?_rel shifts.near "body") with
        ⟨third, fourth⟩ | ⟨g, h, third, fourth, begins, ends⟩
      · simp only [first, second, third, fourth]
      · -- The body stands behind its first point, and its pieces are the body.
        obtain ⟨after, rest⟩ := g.1.exists_rest_eq g.2
        have pieces := (linePieces_cut (g.1.charsTo g.2)).2
        have word : kw'.1.textTo kw'.2 = kw.1.textTo kw.2 := congrArg String.ofList same
        simp only [first, second, third, fourth, word, begins.charsTo ends, linePieces_crlf]
        obtain ⟨w, reads, reads'⟩ := begins
        have whole : text = w ++ ((linePieces (g.1.charsTo g.2)).flatten ++ after) := by
          rw [pieces, ← rest]
          exact reads.rest_eq
        have hits := blockHits_crlf entry_settled names (blockKind (kw.1.textTo kw.2)) _ whole 0
        rw [reads.offset_eq, reads'.offset_eq]
        simpa [Point.start] using hits

end ExportGroup

namespace ImportReading

/-- Whether the modules in the first group of an expression are the same in either form. -/
def settled (r : Regex) : ImportReading → Bool
  | extent => true
  | quoted inner => inner.regex.settled && inner.regex.groupAvoids 1 '\n'
  | _ => r.groupAvoids 1 '\n'

theorem quoted_crlf {inner : Pattern} (settled : inner.regex.settled = true)
    (avoids : inner.regex.groupAvoids 1 '\n' = true) (text : List Char) :
    (quoted inner).modules (crlf text) = (quoted inner).modules text := by
  refine filterMap_eq_of_forall₂ (Regex.matchesOf_shifts settled text) fun m found n shifts => ?_
  obtain ⟨o, _, preferred⟩ := Regex.mem_matchesOf (Regex.settled_iff.mp settled).1 found
  rcases rel_cases (Regex.group?_spared avoids preferred shifts.near) with
    ⟨first, second⟩ | ⟨g, h, first, second, _, same⟩
  · rw [first, second]
  · rw [first, second]
    exact congrArg some same

end ImportReading

namespace ImportRule

def settled (rule : ImportRule) : Bool :=
  rule.pattern.regex.settled && rule.reading.settled rule.pattern.regex

variable {rule : ImportRule} (settled : rule.settled = true)

include settled

/-- The first group names the same modules. -/
theorem modules_rel {text : List Char} {m n : Match} (found : m ∈ rule.pattern.matchesOf text)
    (shifts : m.Shifts text n) :
    Option.Rel (fun g h => rule.reading.modules (h.1.charsTo h.2) =
      rule.reading.modules (g.1.charsTo g.2)) (m.group? 1) (n.group? 1) := by
  obtain ⟨pattern, reading⟩ := rule
  simp only [ImportRule.settled, Bool.and_eq_true] at settled
  obtain ⟨pattern_settled, reads⟩ := settled
  obtain ⟨o, _, preferred⟩ := Regex.mem_matchesOf (Regex.settled_iff.mp pattern_settled).1 found
  cases reading with
  | extent =>
    rcases rel_cases (Regex.group?_rel shifts.near 1) with
      ⟨first, second⟩ | ⟨g, h, first, second, _⟩
    · rw [first, second]
      exact .none
    · rw [first, second]
      exact .some rfl
  | whole | list | path =>
    -- The group is read as it stands, and there is no line feed in it.
    rcases rel_cases (Regex.group?_spared reads preferred shifts.near) with
      ⟨first, second⟩ | ⟨g, h, first, second, _, same⟩
    · rw [first, second]
      exact .none
    · rw [first, second]
      exact .some (by rw [same])
  | quoted inner =>
    simp only [ImportReading.settled, Bool.and_eq_true] at reads
    rcases rel_cases (Regex.group?_rel shifts.near 1) with
      ⟨first, second⟩ | ⟨g, h, first, second, begins, ends⟩
    · rw [first, second]
      exact .none
    · rw [first, second]
      refine .some ?_
      rw [begins.charsTo ends]
      exact ImportReading.quoted_crlf reads.1 reads.2 _

theorem modules_crlf (text : List Char) : rule.modules (crlf text) = rule.modules text := by
  have each := fun (m : Match) found (n : Match) => @modules_rel rule settled text m n found
  obtain ⟨pattern, reading⟩ := rule
  simp only [ImportRule.settled, Bool.and_eq_true] at settled
  cases reading with
  | extent => rfl
  | whole | list | path | quoted =>
    refine flatMap_eq_of_forall₂ (Regex.matchesOf_shifts settled.1 text) fun m found n shifts => ?_
    rcases rel_cases (each m found n shifts) with
      ⟨first, second⟩ | ⟨g, h, first, second, same⟩
    · simp only [first, second]
    · simp only [first, second, same]

/-- Its matches take in bytes of the same lines. -/
theorem spans_crlf (text : List Char) :
    (rule.spans (crlf text)).flatMap (Language.linesOf (.ofText (crlf text))) =
      (rule.spans text).flatMap (Language.linesOf (.ofText text)) := by
  simp only [ImportRule.settled, Bool.and_eq_true] at settled
  obtain ⟨steady, consumes, _, _⟩ := Regex.settled_iff.mp settled.1
  rw [spans, spans, List.flatMap_map, List.flatMap_map]
  refine flatMap_eq_of_forall₂ (Regex.matchesOf_shifts settled.1 text) fun m found n shifts => ?_
  have longer := Regex.start_lt_stop steady consumes found
  have first := shifts.start.lineOf
  obtain ⟨u, reads, reads'⟩ := shifts.start
  obtain ⟨v, further, further'⟩ := shifts.stop
  have start := reads.offset_eq
  have start' := reads'.offset_eq
  have stop := further.offset_eq
  have stop' := further'.offset_eq
  simp only [Point.start, Nat.zero_add] at start start' stop stop'
  -- What lies between the two points has a last character, with the last byte of the match.
  have whole : text = v ++ m.stop.rest := further.rest_eq
  obtain ⟨w, rfl⟩ := eq_append_of_size_le (reads.rest_eq.symm.trans further.rest_eq)
    (show size u ≤ size v by omega)
  rcases List.eq_nil_or_concat' w with rfl | ⟨x, c, rfl⟩
  · simp only [List.append_nil] at stop
    omega
  · have last := LineIndex.lineOf_last_crlf (u ++ x) c m.stop.rest
    have shape : u ++ (x ++ [c]) = (u ++ x) ++ [c] := by simp
    have text_eq : (u ++ x) ++ c :: m.stop.rest = text := by rw [whole]; simp
    have longer' : size (crlf u) < size (crlf (u ++ (x ++ [c]))) := by
      have more := size_le_crlf (x ++ [c])
      have positive := c.utf8Size_pos
      rw [size_append, size_cons] at more
      rw [crlf_append, size_append]
      omega
    rw [text_eq, ← shape, ← stop, ← stop'] at last
    have most : Nat.max (m.stop.offset - 1) m.start.offset = m.stop.offset - 1 :=
      Nat.max_eq_left (by omega)
    have most' : Nat.max (n.stop.offset - 1) n.start.offset = n.stop.offset - 1 :=
      Nat.max_eq_left (by omega)
    simp only [Language.linesOf, most, most', first, last]

end ImportRule

namespace Language

/-- All that a language looks for in a source is the same in either form. -/
structure Settled (l : Language) : Prop where
  rules : ∀ rules ∈ l.exportRules, ∀ rule ∈ rules, rule.settled = true
  groups : ∀ group ∈ l.exportGroups, group.settled = true
  imports : ∀ rule ∈ l.importRules ++ l.localImportRules, rule.settled = true

namespace Settled

variable {l : Language} (settled : l.Settled) (source : String)

include settled

theorem exports? : l.exports? (crlfSource source) = l.exports? source := by
  rw [Language.exports?, Language.exports?, toList_crlfSource]
  cases here : l.exportRules with
  | none => rw [Option.map_none, Option.map_none]
  | some rules =>
    have single := List.flatMap_congr fun rule member =>
      ExportRule.hits_crlf (settled.rules rules here rule member) source.toList
    have grouped := List.flatMap_congr fun group member =>
      ExportGroup.hits_crlf (settled.groups group member) source.toList
    simp only [Option.map_some, exportHits, single, grouped]

theorem modulesBy {rules : List ImportRule}
    (among : ∀ rule ∈ rules, rule ∈ l.importRules ++ l.localImportRules) (text : List Char) :
    modulesBy rules (crlf text) = Language.modulesBy rules text := by
  have same := List.flatMap_congr fun rule member =>
    ImportRule.modules_crlf (settled.imports rule (among rule member)) text
  rw [Language.modulesBy, Language.modulesBy, same]

theorem modules : l.imports (crlfSource source) = l.imports source := by
  have first := settled.modulesBy (fun rule => List.mem_append_left _) source.toList
  have second := settled.modulesBy (fun rule => List.mem_append_right _) source.toList
  simp only [Language.imports, toList_crlfSource, first, second]

theorem importLines : l.importLines (crlfSource source) = l.importLines source := by
  have same : (l.importSpans (crlfSource source)).flatMap
        (linesOf (.ofText (crlf source.toList))) =
      (l.importSpans source).flatMap (linesOf (.ofText source.toList)) := by
    rw [importSpans, importSpans, toList_crlfSource, List.flatMap_assoc, List.flatMap_assoc]
    exact List.flatMap_congr fun rule member =>
      ImportRule.spans_crlf (settled.imports rule member) source.toList
  simp only [Language.importLines, toList_crlfSource, same]

end Settled

end Language

end Ripple
