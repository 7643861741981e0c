import Ripple.Proofs.Language.ExportLines

/-!
Imports line by line. Where the patterns of a language keep to a line, the imports of whole lines and
more text are those of the lines together with those of the text. So it does not matter in which order
the lines of a source stand, nor how often.
-/

namespace Ripple

open Point

namespace Pattern

/-- The texts that the first group of a pattern holds in its matches, from left to right. -/
def captures (p : Pattern) (text : List Char) : List (List Char) :=
  (p.matchesOf text).filterMap fun m => (m.group? 1).map fun g => g.1.charsTo g.2

theorem mem_captures {p : Pattern} {text w : List Char} : w ∈ p.captures text ↔
    ∃ m ∈ p.matchesOf text, ∃ s e, m.group? 1 = some (s, e) ∧ s.charsTo e = w := by
  simp only [captures, List.mem_filterMap, Option.map_eq_some_iff, Prod.exists]

variable {p : Pattern} (joins : p.regex.joins = true)

include joins

/-- A pattern that keeps to a line captures in whole lines and more text what it captures in the
lines, and then what it captures in the text. -/
theorem captures_append {front : List Char} (whole : Text.WholeLines front) (back : List Char) :
    p.captures (front ++ back) = p.captures front ++ p.captures back := by
  have found : p.matchesOf (front ++ back) = (p.matchesOf front).map (.map (.append back)) ++
      (p.matchesOf back).map (.map (.prepend front)) := Regex.matchesOf_append whole joins
  rw [captures, captures, captures, found, List.filterMap_append, List.filterMap_map,
    List.filterMap_map]
  congr 1
  · -- The points of a group lie in the lines, so that the text behind these is not read.
    refine List.filterMap_congr fun m member => ?_
    rw [Function.comp_apply, Match.group?_map, Option.map_map]
    cases group : m.group? 1 with
    | none => rfl
    | some g =>
      obtain ⟨first, second⟩ := Regex.group?_inside member group
      exact congrArg some (charsTo_append first second back)
  · refine List.filterMap_congr fun m _ => ?_
    rw [Function.comp_apply, Match.group?_map, Option.map_map]
    cases m.group? 1 with
    | none => rfl
    | some g => exact congrArg some (charsTo_prepend front g.1 g.2)

end Pattern

namespace Language

/-- The modules of a rule are read off what its pattern captures. -/
theorem mem_modules_iff_captures {rule : ImportRule} {text : List Char} {name : String} :
    name ∈ rule.modules text ↔ name ≠ "" ∧
      ∃ captured ∈ rule.pattern.captures text, name.toList ∈ rule.reading.modules captured := by
  rw [mem_modules_iff]
  refine and_congr_right fun _ => ?_
  constructor
  · rintro ⟨m, found, s, e, group, read⟩
    exact ⟨_, Pattern.mem_captures.mpr ⟨m, found, s, e, group, rfl⟩, read⟩
  · rintro ⟨captured, member, read⟩
    obtain ⟨m, found, s, e, group, rfl⟩ := Pattern.mem_captures.mp member
    exact ⟨m, found, s, e, group, read⟩

section Parts

variable {p : Pattern} {body : Regex} {front back : List Regex}
  (shape : p.regex = Regex.seqs (front ++ .group 1 body :: back))
  (fine : (Regex.seqs (front ++ .group 1 body :: back)).steady = true ∧ body.hasGroup 1 = false ∧
    (Regex.seqs back).hasGroup 1 = false)

include shape fine

/-- What a pattern captures is read by the part within its group. -/
theorem spans_of_captured {text w : List Char} (captured : w ∈ p.captures text) :
    ∃ a s e b, a.In text ∧ (Regex.seqs front).Takes a s ∧ body.Takes s e ∧
      (Regex.seqs back).Takes e b ∧ s.charsTo e = w := by
  obtain ⟨m, found, s, e, group, chars⟩ := Pattern.mem_captures.mp captured
  obtain ⟨a, b, inside, first, second, third⟩ := spans_of_match shape fine found group
  exact ⟨a, s, e, b, inside, first, second, third, chars⟩

theorem exists_captured {text : List Char} (found : p.matchesIn text = true) :
    ∃ w, w ∈ p.captures text := by
  obtain ⟨m, member⟩ := Regex.exists_mem_matchesOf found
  obtain ⟨_, s, e, _, group, _⟩ := exists_spans_of_match shape fine member
  exact ⟨_, Pattern.mem_captures.mpr ⟨m, member, s, e, group, rfl⟩⟩

end Parts

end Language

namespace ImportReading

/-- Whether a pattern only marks the extent of imports. -/
def marks : ImportReading → Bool
  | extent => true
  | _ => false

end ImportReading

namespace ImportRule

/-- Whether the modules of a rule are found line by line. -/
def linewise (rule : ImportRule) : Bool := rule.reading.marks || rule.pattern.regex.joins

theorem mem_modules_append {rule : ImportRule} (linewise : rule.linewise = true) {front : List Char}
    (whole : Text.WholeLines front) (back : List Char) (name : String) :
    name ∈ rule.modules (front ++ back) ↔ name ∈ rule.modules front ∨ name ∈ rule.modules back := by
  rcases Bool.or_eq_true_iff.mp linewise with marks | joins
  · have none : ∀ text, rule.modules text = [] := by
      intro text
      rw [modules]
      split
      next => rfl
      next other =>
        cases reading : rule.reading with
        | extent => exact absurd reading other
        | _ => simp [reading, ImportReading.marks] at marks
    simp [none]
  · simp only [Language.mem_modules_iff_captures, Pattern.captures_append joins whole,
      List.mem_append, or_and_right, exists_or, and_or_left]

theorem linewise_ofText {source : String} {cs : List Char} {reading : ImportReading}
    (text : source = String.ofList cs) (checked : linewise ⟨.ofChars source cs, reading⟩ = true) :
    linewise ⟨.ofText source, reading⟩ = true := by
  rwa [Pattern.ofText_eq text]

end ImportRule

namespace Language

section Unscoped

variable {l : Language} (noLocal : l.localImportRules = [])

include noLocal

theorem imports_eq (source : String) : l.imports source =
    (modulesBy l.importRules source.toList).map fun name => ⟨name, l.classify name⟩ := by
  have further : modulesBy l.localImportRules source.toList = [] := by
    apply List.eq_nil_iff_forall_not_mem.mpr
    intro name member
    rw [modulesBy, noLocal] at member
    simpa using Text.mem_ascending.mp member
  rw [imports, further, List.filter_nil, List.map_nil, List.append_nil]

theorem mem_imports_iff {source : String} {i : Import} : i ∈ l.imports source ↔
    i.origin = l.classify i.name ∧ ∃ rule ∈ l.importRules, i.name ∈ rule.modules source.toList := by
  rw [imports_eq noLocal, List.mem_map]
  simp only [modulesBy, Text.mem_ascending, List.mem_flatMap]
  constructor
  · rintro ⟨name, found, rfl⟩
    exact ⟨rfl, found⟩
  · rintro ⟨origin, found⟩
    exact ⟨i.name, found, by rw [← origin]⟩

theorem imports_ascend (source : String) :
    (l.imports source).Pairwise fun a b => a.name < b.name := by
  rw [imports_eq noLocal, List.pairwise_map]
  exact Text.ascending_ascends _

end Unscoped

/-- The imports of a language are found line by line, and their origins are told by their names. -/
structure ImportsLinewise (l : Language) : Prop where
  rules : ∀ rule ∈ l.importRules, rule.linewise = true
  noLocal : l.localImportRules = []

namespace ImportsLinewise

variable {l : Language} (linewise : l.ImportsLinewise)

include linewise

theorem mem_imports_append {front : String} (whole : Text.WholeLines front.toList) (back : String)
    (i : Import) :
    i ∈ l.imports (front ++ back) ↔ i ∈ l.imports front ∨ i ∈ l.imports back := by
  simp only [mem_imports_iff linewise.noLocal, String.toList_append, ← and_or_left, ← exists_or]
  refine and_congr_right fun _ => exists_congr fun rule => and_congr_right fun listed => ?_
  exact ImportRule.mem_modules_append (linewise.rules rule listed) whole back.toList i.name

/-- Pieces of whole lines, one after another, import what each of them imports. -/
theorem mem_imports_join {pieces : List String}
    (whole : ∀ piece ∈ pieces, Text.WholeLines piece.toList) (last : String) (i : Import) :
    i ∈ l.imports (String.join pieces ++ last) ↔
      (∃ piece ∈ pieces, i ∈ l.imports piece) ∨ i ∈ l.imports last := by
  induction pieces with
  | nil => simp
  | cons piece pieces ih =>
    obtain ⟨here, others⟩ := List.forall_mem_cons.mp whole
    rw [String.join_cons, String.append_assoc, linewise.mem_imports_append here, ih others]
    simp only [List.mem_cons, exists_eq_or_imp, or_assoc]

end ImportsLinewise

open List Pattern

theorem python_importsLinewise : python.ImportsLinewise where
  rules := by
    refine forall_mem_cons.mpr ⟨?_, forall_mem_cons.mpr ⟨?_, forall_mem_singleton.mpr rfl⟩⟩
    · exact ImportRule.linewise_ofText rfl rfl
    · exact ImportRule.linewise_ofText (joined rfl rfl) rfl
  noLocal := rfl

theorem javaScript_importsLinewise : javaScript.ImportsLinewise where
  rules := by
    refine forall_mem_cons.mpr ⟨?_, forall_mem_cons.mpr ⟨?_, forall_mem_cons.mpr ⟨?_,
      forall_mem_singleton.mpr rfl⟩⟩⟩
    · exact ImportRule.linewise_ofText rfl rfl
    · exact ImportRule.linewise_ofText rfl rfl
    · exact ImportRule.linewise_ofText rfl rfl
  noLocal := rfl

theorem java_importsLinewise : java.ImportsLinewise where
  rules := forall_mem_singleton.mpr (ImportRule.linewise_ofText rfl rfl)
  noLocal := rfl

/-- Python, JavaScript and Java import in whole lines and more text what they import in either of
them, in ascending order; so only the set of the lines that end with a line feed matters. -/
theorem imports_of_wholeLines {l : Language} (member : l ∈ [python, javaScript, java]) :
    (∀ front back : String, Text.WholeLines front.toList →
      (l.imports (front ++ back)).Pairwise (fun a b => a.name < b.name) ∧
        ∀ i, i ∈ l.imports (front ++ back) ↔ i ∈ l.imports front ∨ i ∈ l.imports back) ∧
    ∀ (lines lines' : List String) (last : String),
      (∀ line ∈ lines, Text.WholeLines line.toList) → (∀ line, line ∈ lines ↔ line ∈ lines') →
      l.imports (String.join lines ++ last) = l.imports (String.join lines' ++ last) := by
  have linewise : l.ImportsLinewise := by
    simp only [mem_cons, not_mem_nil, or_false] at member
    rcases member with rfl | rfl | rfl
    · exact python_importsLinewise
    · exact javaScript_importsLinewise
    · exact java_importsLinewise
  constructor
  · intro front back whole
    exact ⟨imports_ascend linewise.noLocal _, linewise.mem_imports_append whole back⟩
  · intro lines lines' last whole same
    have whole' : ∀ line ∈ lines', Text.WholeLines line.toList := fun line listed =>
      whole line ((same line).mpr listed)
    apply eq_of_ascending (imports_ascend linewise.noLocal _) (imports_ascend linewise.noLocal _)
    intro i
    rw [linewise.mem_imports_join whole, linewise.mem_imports_join whole']
    simp only [same]

/-- A call of `require` is found anywhere in a line. Here it begins the second part, and the lines
stand in another order and repeated. -/
theorem imports_of_wholeLines_call :
    (∀ i, i ∈ javaScript.imports ("import 'a';\n" ++ "require('b')") ↔
      i ∈ javaScript.imports "import 'a';\n" ∨ i ∈ javaScript.imports "require('b')") ∧
    javaScript.imports (String.join ["import 'a';\n", "require('b')\n"] ++ "require('c')") =
      javaScript.imports (String.join
        ["require('b')\n", "import 'a';\n", "require('b')\n"] ++ "require('c')") := by
  have first : Text.WholeLines "import 'a';\n".toList := .inr ⟨"import 'a';".toList, by decide⟩
  have second : Text.WholeLines "require('b')\n".toList := .inr ⟨"require('b')".toList, by decide⟩
  obtain ⟨union, reordered⟩ := imports_of_wholeLines (l := javaScript) (by simp)
  refine ⟨(union _ _ first).2, reordered _ _ _ ?_ fun line => ?_⟩
  · simpa using ⟨first, second⟩
  · simp only [mem_cons, not_mem_nil, or_false]
    grind

end Language

end Ripple
