import Mathlib.Data.List.Nodup
import Ripple.Analysis.Extraction
import Ripple.Proofs.Analysis.Usages
import Ripple.Proofs.Files.Following
import Ripple.Proofs.Language.ExportNames

/-!
Which uses of exported names are seen. A name is sought between two edges of words, and a dollar sign
belongs to no word: beside a dollar sign at the end of a name, an edge is only where a character of a
word follows. So all names are seen in use but those that begin or end with a dollar sign.
-/

namespace Ripple

open Ripple.Language

/-- A name stands in a text with no character of an identifier beside it. -/
def Mentions (dollar : Bool) (name text : List Char) : Prop :=
  ∃ u v, text = u ++ (name ++ v) ∧ u.getLast?.any (isNameChar dollar) = false ∧
    v.head?.any (isNameChar dollar) = false

namespace IsIdentifier

variable {dollar : Bool} {name : List Char}

/-- All characters of an identifier but the dollar sign belong to words. -/
theorem isWord_eq (identifier : IsIdentifier dollar name) {c : Char} (member : c ∈ name) :
    Unicode.isWord c = !decide (c = '$') := by
  by_cases same : c = '$'
  · subst same
    decide
  · have passes := identifier.chars c member
    simpa [isNameChar, same] using passes

theorem isEdge_front_iff (identifier : IsIdentifier dollar name) {u v : List Char} :
    IsEdge u (name ++ v) ↔ (u.getLast?.any Unicode.isWord = true ↔ name.head? = some '$') := by
  obtain ⟨c, rest, rfl⟩ := List.exists_cons_of_ne_nil identifier.nonempty
  rw [IsEdge, List.cons_append, List.head?_cons, List.head?_cons, Option.any_some,
    identifier.isWord_eq List.mem_cons_self, Option.some.injEq]
  by_cases same : c = '$' <;> simp [same]

theorem isEdge_back_iff (identifier : IsIdentifier dollar name) {u v : List Char} :
    IsEdge (u ++ name) v ↔ (v.head?.any Unicode.isWord = true ↔ name.getLast? = some '$') := by
  obtain ⟨rest, c, rfl⟩ := (List.eq_nil_or_concat' name).resolve_left identifier.nonempty
  rw [IsEdge, ← List.append_assoc, List.getLast?_concat, List.getLast?_concat, Option.any_some,
    identifier.isWord_eq (by simp), Option.some.injEq, ne_comm]
  by_cases same : c = '$' <;> simp [same]

/-- An identifier is found where a character of a word stands beside it at exactly those of its ends
that are dollar signs. -/
theorem standsIn_iff (identifier : IsIdentifier dollar name) {text : List Char} :
    StandsIn name text ↔ ∃ u v, text = u ++ (name ++ v) ∧
      (u.getLast?.any Unicode.isWord = true ↔ name.head? = some '$') ∧
      (v.head?.any Unicode.isWord = true ↔ name.getLast? = some '$') := by
  simp only [StandsIn, identifier.isEdge_front_iff, identifier.isEdge_back_iff]

theorem standsIn_of_mentions (identifier : IsIdentifier dollar name)
    (begins : name.head? ≠ some '$') (ends : name.getLast? ≠ some '$') {text : List Char}
    (mentions : Mentions dollar name text) : StandsIn name text := by
  have noWord : ∀ {o : Option Char}, o.any (isNameChar dollar) = false →
      o.any Unicode.isWord = false := by
    intro o none
    cases o with
    | none => rfl
    | some c => exact (Bool.or_eq_false_iff.mp none).1
  obtain ⟨u, v, rfl, front, back⟩ := mentions
  -- Beside a name that is mentioned there is no word, and none of its ends asks for one.
  refine identifier.standsIn_iff.mpr ⟨u, v, rfl, ?_, ?_⟩
  · simp [noWord front, begins]
  · simp [noWord back, ends]

end IsIdentifier

namespace Line

theorem length_all (text : List Char) : (all text).length = (Text.lines text).length := by
  have same := congrArg List.length (zipIdx_lines text)
  simpa using same.symm

theorem eq_of_number_eq {text : List Char} {a b : Line} (first : a ∈ all text) (second : b ∈ all text)
    (same : a.number = b.number) : a = b := by
  have distinct : ((all text).map (·.number)).Nodup := by
    rw [map_number_all]
    exact List.nodup_range'
  exact List.inj_on_of_nodup_map distinct first second same

end Line

namespace Engine

/-- A use of a symbol is recorded for a line of a dependent. -/
def Sees (e : Engine) (fs : Files) (root : List OsString) (exports : List Export)
    (dependents : List OsString) (name : String) (file : OsString) (number : Nat) : Prop :=
  ∃ use ∈ (e.trackUsages fs root exports dependents).uses name, use.file = file ∧ use.line = number

section Lines

variable {e : Engine} {fs : Files} {root : List OsString} {file : OsString} {text : String}
  (read : fs.readText (Path.join (Files.pathOf root) file) = .ok text)
  (room : (Text.lines text.toList).length ≤ e.settings.usageLimit)

include read room

/-- With room for all lines, each line on which the pattern matches is recorded. -/
theorem usesIn_eq (pattern : Pattern) :
    usesIn e.settings pattern file (e.usableLines fs root file) =
      (e.useLines (Path.join (Files.pathOf root) file) text pattern).map fun line =>
        ⟨file, line.number, snippet e.settings.snippetWidth line.content⟩ := by
  have few : (e.useLines (Path.join (Files.pathOf root) file) text pattern).length ≤
      e.settings.usageLimit :=
    calc (e.useLines (Path.join (Files.pathOf root) file) text pattern).length
      _ ≤ (Line.all text.toList).length :=
        Nat.le_trans (List.length_filter_le _ _) (List.length_filter_le _ _)
      _ = (Text.lines text.toList).length := Line.length_all _
      _ ≤ e.settings.usageLimit := room
  rw [usableLines_eq e read, usesIn, List.filter_map, ← List.map_take, List.map_map]
  exact congrArg _ (List.take_of_length_le few)

theorem sees_iff {exports : List Export} {dependents : List OsString} {name : String}
    (isPublic : name ∈ publicNames exports) (dependent : file ∈ dependents) {line : Line}
    (inText : line.Of text.toList) :
    e.Sees fs root exports dependents name file line.number ↔
      e.IsUse (Path.join (Files.pathOf root) file) text name line := by
  rw [Sees, uses_trackUsages, if_pos isPublic, usesAcross]
  rcases wordPattern_cases name with ⟨pattern, compiled, finds⟩ | ⟨⟨cause, refused⟩, _⟩
  · rw [compiled, ← mem_useLines_iff e compiled finds]
    constructor
    · rintro ⟨use, recorded, inFile, number⟩
      obtain ⟨file', _, recorded⟩ := List.mem_flatMap.mp recorded
      -- A use names its file, and the number of a line belongs to that line only.
      obtain rfl : file' = file := (file_of_mem_usesIn recorded).symm.trans inFile
      rw [usesIn_eq read room] at recorded
      obtain ⟨line', member, rfl⟩ := List.mem_map.mp recorded
      have listed : line' ∈ Line.all text.toList :=
        List.mem_of_mem_filter (List.mem_of_mem_filter member)
      rwa [← Line.eq_of_number_eq listed (Line.mem_all_iff.mpr inText) number]
    · intro member
      refine ⟨⟨file, line.number, snippet e.settings.snippetWidth line.content⟩,
        List.mem_flatMap.mpr ⟨file, dependent, ?_⟩, rfl, rfl⟩
      rw [usesIn_eq read room]
      exact List.mem_map.mpr ⟨line, member, rfl⟩
  · -- A name without a pattern has no uses at all.
    rw [refused]
    constructor
    · rintro ⟨use, recorded, _⟩
      cases recorded
    · rintro ⟨_, _, ⟨pattern, compiled⟩, _⟩
      rw [refused] at compiled
      cases compiled

end Lines

theorem mem_publicNames {exports : List Export} {x : Export} (exported : x ∈ exports)
    (isPublic : x.isPublic = true) : x.name ∈ publicNames exports := by
  rw [publicNames, Text.mem_ascending]
  exact List.mem_map_of_mem (List.mem_filter.mpr ⟨exported, isPublic⟩)

theorem identifier_of_export {l : Language} (builtin : l ∈ LanguageTable.builtin.languages)
    {source : String} {x : Export} (exported : x ∈ (Extraction.exports source (some l)).items) :
    IsIdentifier l.dollar x.name.toList := by
  rw [Extraction.exports] at exported
  split at exported
  next symbols found => exact (builtin_named builtin).identifier found exported
  next => cases exported

/-- An exported name is seen on each line of a dependent that mentions it outside of imports, unless
it begins or ends with a dollar sign: a character of a word has to stand beside such an end. Only
JavaScript has such names. -/
theorem exported_names_seen {l : Language} (builtin : l ∈ LanguageTable.builtin.languages)
    {source : String} {x : Export} (exported : x ∈ (Extraction.exports source (some l)).items)
    (isPublic : x.isPublic = true) (e : Engine) {fs : Files} {root : List OsString}
    {dependents : List OsString} {file : OsString} {text : String} (dependent : file ∈ dependents)
    (read : fs.readText (Path.join (Files.pathOf root) file) = .ok text)
    (room : (Text.lines text.toList).length ≤ e.settings.usageLimit) {line : Line}
    (inText : line.Of text.toList)
    (outside : ∀ l', e.table.ofPath? (Path.join (Files.pathOf root) file) = some l' →
      ∀ span ∈ l'.importSpans text, ¬ line.TouchedBy span) :
    (x.name.toList.head? ≠ some '$' → x.name.toList.getLast? ≠ some '$' →
      Point.size x.name.toList ≤ 100000 → Mentions l.dollar x.name.toList line.content →
      e.Sees fs root (Extraction.exports source (some l)).items dependents x.name file
        line.number) ∧
    (e.Sees fs root (Extraction.exports source (some l)).items dependents x.name file line.number ↔
      (∃ pattern, wordPattern x.name = .ok pattern) ∧
      ∃ u v, line.content = u ++ (x.name.toList ++ v) ∧
        (u.getLast?.any Unicode.isWord = true ↔ x.name.toList.head? = some '$') ∧
        (v.head?.any Unicode.isWord = true ↔ x.name.toList.getLast? = some '$')) ∧
    (l.name ≠ "JavaScript" → '$' ∉ x.name.toList) := by
  have identifier := identifier_of_export builtin exported
  have sees := sees_iff read room (mem_publicNames exported isPublic) dependent inText
  -- Nothing but its size stands in the way of a pattern for the name.
  have searchable : Point.size x.name.toList ≤ 100000 →
      ∃ pattern, wordPattern x.name = .ok pattern := by
    intro short
    rcases wordPattern_cases x.name with ⟨pattern, compiled, _⟩ | ⟨_, long⟩
    · exact ⟨pattern, compiled⟩
    · omega
  refine ⟨fun begins ends short mentions => ?_, ?_, fun other member => ?_⟩
  · exact sees.mpr ⟨inText, outside, searchable short,
      identifier.standsIn_of_mentions begins ends mentions⟩
  · -- The line is given and lies outside of imports: what is left is that the name stands on it.
    rw [sees, ← identifier.standsIn_iff]
    exact ⟨fun use => ⟨use.searchable, use.named⟩,
      fun found => ⟨inText, outside, found.1, found.2⟩⟩
  · have off : l.dollar = false := decide_eq_false other
    rw [off] at identifier
    exact absurd (identifier.chars '$' member) (by decide)

end Engine

section Store

/-- A module that exports two constants. -/
def storeSource : String := "export const $store = 1;\nexport const state$1 = 2;\n"

/-- A file that imports both constants on its first line and uses them on its second one. -/
def storeApp : String :=
  "import \x7b $store, state$1 \x7d from './store';\n$store.get(state$1);\n"

def storeProject : Files :=
  ⟨.dir [("store.js", .file storeSource.toUTF8), ("app.js", .file storeApp.toUTF8)], []⟩

/-- The line on which the constants are used. -/
def storeUse : Line :=
  ⟨"import \x7b $store, state$1 \x7d from './store';\n".toList, "$store.get(state$1);".toList, ['\n']⟩

theorem read_storeProject :
    storeProject.readText (Path.join (Files.pathOf []) "app.js") = .ok storeApp := by
  have found : storeProject.read (Path.join (Files.pathOf []) "app.js") = .ok storeApp.toUTF8 := rfl
  have decoded : Files.decode storeApp.toUTF8 = .ok storeApp := Files.decode_eq_ok_iff.mpr rfl
  rw [Files.readText, found]
  exact decoded

theorem storeUse_of : storeUse.Of storeApp.toList where
  begins := .inr ⟨"import \x7b $store, state$1 \x7d from './store';".toList, by decide⟩
  single := by decide
  ends := ⟨[], by decide, .feed (by decide)⟩

theorem store_exports : ∀ x ∈ [(⟨"$store", .constant, 1, true⟩ : Export),
      ⟨"state$1", .constant, 2, true⟩],
    x ∈ (Extraction.exports storeSource (some javaScript)).items := by
  have hits : ExportRule.hits ⟨JavaScript.constantPattern, .constant, .exported⟩ storeSource.toList
      (.ofText storeSource.toList) =
        [⟨"$store", .constant, 1, true⟩, ⟨"state$1", .constant, 2, true⟩] := by
    rw [JavaScript.constantPattern, Pattern.ofText_eq rfl]
    decide +kernel
  intro x listed
  have found : x ∈ javaScript.exportHits
      [⟨JavaScript.functionPattern, .function, .exported⟩,
        ⟨JavaScript.classPattern, .type, .exported⟩, ⟨JavaScript.typePattern, .type, .exported⟩,
        ⟨JavaScript.constantPattern, .constant, .exported⟩,
        ⟨JavaScript.variablePattern, .var, .exported⟩] storeSource.toList :=
    List.mem_append_left _ (List.mem_flatMap.mpr ⟨_, by simp, hits ▸ listed⟩)
  exact List.mem_mergeSort.mpr found

/-- The only import of the file ends in front of the use. -/
theorem storeUse_outside : ∀ span ∈ javaScript.importSpans storeApp, ¬ storeUse.TouchedBy span := by
  have ahead : ∀ rule ∈ javaScript.importRules, (rule.spans storeApp.toList).all
      (fun span => span.1 < span.2 && span.2 ≤ storeUse.start) = true := by
    refine List.forall_mem_cons.mpr ⟨?_, List.forall_mem_cons.mpr ⟨?_, List.forall_mem_cons.mpr ⟨?_,
      List.forall_mem_singleton.mpr ?_⟩⟩⟩
    · rw [JavaScript.fromPattern, Pattern.ofText_eq rfl]
      decide +kernel
    · rw [JavaScript.barePattern, Pattern.ofText_eq rfl]
      decide +kernel
    · rw [JavaScript.requirePattern, Pattern.ofText_eq rfl]
      decide +kernel
    · rw [JavaScript.blockPattern, Pattern.ofText_eq rfl]
      decide +kernel
  intro span listed touched
  obtain ⟨rule, member, listed⟩ := List.mem_flatMap.mp listed
  have ends := List.all_eq_true.mp (ahead rule member) span listed
  rw [Bool.and_eq_true, decide_eq_true_eq, decide_eq_true_eq] at ends
  rcases touched with ⟨offset, _, before, behind, _⟩ | ⟨same, _⟩ <;> omega

theorem exported_names_seen_store :
    ∃ x ∈ (Extraction.exports storeSource (some javaScript)).items,
      x.isPublic = true ∧ x.name = "state$1" ∧
      Engine.Sees ⟨{}, .builtin⟩ storeProject [] (Extraction.exports storeSource (some javaScript)).items
        ["app.js"] "state$1" "app.js" storeUse.number := by
  have exported := store_exports ⟨"state$1", .constant, 2, true⟩ (by simp)
  refine ⟨_, exported, rfl, rfl, ?_⟩
  refine (Engine.exported_names_seen (.tail _ (.head _)) exported rfl ⟨{}, .builtin⟩ (.head _)
    read_storeProject (by decide) storeUse_of ?_).1 (by decide) (by decide) (by decide) ?_
  · rintro _ ⟨⟩
    exact storeUse_outside
  · exact ⟨"$store.get(".toList, ");".toList, by decide, by decide, by decide⟩

/-- The name stands at the beginning of the line only, where nothing precedes it. -/
theorem store_not_standsIn : ¬ StandsIn "$store".toList storeUse.content := by
  have identifier : IsIdentifier javaScript.dollar "$store".toList :=
    Engine.identifier_of_export (.tail _ (.head _))
      (store_exports ⟨"$store", .constant, 1, true⟩ (.head _))
  have line : storeUse.content = '$' :: "store.get(state$1);".toList := by decide
  intro stands
  obtain ⟨u, v, content, front, _⟩ := identifier.standsIn_iff.mp stands
  have word : u.getLast?.any Unicode.isWord = true := front.mpr (by decide)
  cases u with
  | nil => cases word
  | cons c u =>
    rw [line, List.cons_append] at content
    obtain ⟨_, content⟩ := List.cons.inj content
    have later : Text.contains "$store".toList "store.get(state$1);".toList = true := by
      rw [Text.contains_iff, content, ← List.append_assoc]
      exact ⟨u, v, rfl⟩
    exact absurd later (by decide)

/-- A name that begins with a dollar sign is not seen where it is mentioned. -/
theorem dollar_name_unseen :
    ∃ x ∈ (Extraction.exports storeSource (some javaScript)).items,
      x.isPublic = true ∧ x.name = "$store" ∧ Point.size x.name.toList ≤ 100000 ∧
      Mentions javaScript.dollar x.name.toList storeUse.content ∧ storeUse.Of storeApp.toList ∧
      storeProject.readText (Path.join (Files.pathOf []) "app.js") = .ok storeApp ∧
      (∀ span ∈ javaScript.importSpans storeApp, ¬ storeUse.TouchedBy span) ∧
      ∀ limit, (Text.lines storeApp.toList).length ≤ limit →
        ¬ Engine.Sees ⟨{ usageLimit := limit }, .builtin⟩ storeProject []
          (Extraction.exports storeSource (some javaScript)).items ["app.js"] x.name "app.js"
          storeUse.number := by
  have exported := store_exports ⟨"$store", .constant, 1, true⟩ (.head _)
  refine ⟨_, exported, rfl, rfl, by decide, ?_, storeUse_of, read_storeProject, storeUse_outside, ?_⟩
  · exact ⟨[], ".get(state$1);".toList, by decide, by decide, by decide⟩
  · intro limit room sees
    exact store_not_standsIn ((Engine.sees_iff read_storeProject room
      (Engine.mem_publicNames exported rfl) (.head _) storeUse_of).mp sees).named

end Store

end Ripple
