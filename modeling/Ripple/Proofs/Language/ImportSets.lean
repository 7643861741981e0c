import Ripple.Proofs.Language.ImportUnion
import Ripple.Proofs.Language.Placement
import Ripple.Proofs.Language.Rows
import Ripple.Proofs.Text.Encoding

/-!
The imports of a source as a set. No import is listed twice or without a name, and the names stand in
the order of their bytes. Where an import comes from is told by its name alone, but for the headers of
C and C++: there it also matters whether some line includes the header in angle brackets.
-/

namespace Ripple

/-- A text is its first line, the line feed behind it, and more text; or a line that is not ended. -/
theorem Text.exists_first_line (text : List Char) : ∃ line feed rest,
    text = line ++ (feed ++ rest) ∧ '\n' ∉ line ∧ (feed = ['\n'] ∨ feed = [] ∧ rest = []) := by
  by_cases more : '\n' ∈ text
  · obtain ⟨line, rest, rfl, single⟩ := List.eq_append_cons_of_mem more
    exact ⟨line, ['\n'], rest, rfl, single, .inl rfl⟩
  · exact ⟨text, [], [], by simp, more, .inr ⟨rfl, rfl⟩⟩

namespace Language

open Regex Language.Part

/-- The names of some imports ascend strictly in the order of their bytes. -/
def Ascend (imports : List Import) : Prop :=
  imports.Pairwise fun a b => Text.bytes a.name.toList < Text.bytes b.name.toList

theorem ascend_of_names {imports : List Import}
    (names : (imports.map (·.name)).Pairwise (· < ·)) : Ascend imports :=
  (List.pairwise_map.mp names).imp fun below => Text.bytes_lt (String.lt_iff.mp below)

theorem mem_modulesBy {rules : List ImportRule} {text : List Char} {name : String} :
    name ∈ modulesBy rules text ↔ ∃ rule ∈ rules, name ∈ rule.modules text := by
  rw [modulesBy, Text.mem_ascending, List.mem_flatMap]

theorem name_ne_empty {l : Language} {source : String} {i : Import}
    (member : i ∈ l.imports source) : i.name ≠ "" := by
  obtain ⟨rule, _, found⟩ := mem_imports member
  exact (mem_modules_iff.mp found).1

section Names

variable (l : Language) (text : List Char)

/-- The modules that only the local rules find. -/
def furtherModules : List String :=
  (modulesBy l.localImportRules text).filter fun m => !(modulesBy l.importRules text).contains m

theorem mem_furtherModules {name : String} : name ∈ l.furtherModules text ↔
    name ∈ modulesBy l.localImportRules text ∧ name ∉ modulesBy l.importRules text := by
  rw [furtherModules, List.mem_filter]
  simp

theorem furtherModules_ascend : (l.furtherModules text).Pairwise (· < ·) :=
  (Text.ascending_ascends _).filter _

end Names

theorem imports_eq_append (l : Language) (source : String) : l.imports source =
    (modulesBy l.importRules source.toList).map (fun m => ⟨m, l.classify m⟩) ++
      (l.furtherModules source.toList).map fun m =>
        ⟨m, if l.classify m = .stdlib then .stdlib else .internal⟩ := rfl

theorem names_of_modules (origin : String → Origin) (modules : List String) :
    (modules.map fun m => (⟨m, origin m⟩ : Import)).map (·.name) = modules := by
  rw [List.map_map]
  exact List.map_id _

theorem imports_names (l : Language) (source : String) : (l.imports source).map (·.name) =
    modulesBy l.importRules source.toList ++ l.furtherModules source.toList := by
  rw [imports_eq_append, List.map_append, names_of_modules, names_of_modules]

theorem nodup_imports_names (l : Language) (source : String) :
    ((l.imports source).map (·.name)).Nodup := by
  have distinct : ∀ {names : List String}, names.Pairwise (· < ·) → names.Nodup :=
    fun ascends => ascends.imp Std.ne_of_lt
  rw [imports_names, List.nodup_append]
  refine ⟨distinct (Text.ascending_ascends _), distinct (l.furtherModules_ascend _), ?_⟩
  rintro name first _ further rfl
  exact ((l.mem_furtherModules _).mp further).2 first

theorem noLocal_of_known {l : Language}
    (known : l ∈ LanguageTable.builtin.languages ∨ ∃ d : LanguageDefinition, d.compile = .ok l)
    (other : l ≠ cFamily) : l.localImportRules = [] := by
  rcases known with member | ⟨d, compiled⟩
  · rcases builtin_cases member with rfl | rfl | rfl | rfl | rfl | rfl
    · rfl
    · rfl
    · rfl
    · rfl
    · rfl
    · exact absurd rfl other
  · obtain ⟨_, _, _, _, _, rfl⟩ := eq_of_compile compiled
    rfl

namespace CFamily

/-- A text begins with a line that includes what stands between two marks. -/
def BeginsWithInclude (opening closing : Char) (inner text : List Char) : Prop :=
  ∃ pad gap gap' behind,
    text = pad ++ '#' :: (gap ++ ("include".toList ++ (gap' ++
      opening :: (inner ++ closing :: behind)))) ∧
    (∀ c ∈ pad ++ (gap ++ gap'), c = ' ' ∨ c = '\t') ∧
    inner ≠ [] ∧ closing ∉ inner ∧ '\n' ∉ inner

/-- Some line of a text includes a header between two marks. Blanks around the name of the header are
no part of it. -/
def Includes (opening closing : Char) (text : List Char) (header : String) : Prop :=
  header ≠ "" ∧ ∃ before line inner, text = before ++ line ∧ Text.WholeLines before ∧
    BeginsWithInclude opening closing inner line ∧ Text.trim inner = header.toList

theorem not_mem_blanks {u v w : List Char} (blanks : ∀ c ∈ u ++ (v ++ w), c = ' ' ∨ c = '\t')
    {c : Char} (solid : c ≠ ' ' ∧ c ≠ '\t') : c ∉ u ∧ c ∉ v ∧ c ∉ w := by
  have absent : c ∉ u ++ (v ++ w) := fun listed => (blanks c listed).elim solid.1 solid.2
  simpa only [List.mem_append, not_or] using absent

namespace BeginsWithInclude

variable {opening closing : Char} {inner text : List Char}

theorem append (begins : BeginsWithInclude opening closing inner text) (more : List Char) :
    BeginsWithInclude opening closing inner (text ++ more) := by
  obtain ⟨pad, gap, gap', behind, rfl, fine⟩ := begins
  exact ⟨pad, gap, gap', behind ++ more, by simp, fine⟩

theorem ne_nil (begins : BeginsWithInclude opening closing inner text) : text ≠ [] := by
  obtain ⟨pad, gap, gap', behind, rfl, _⟩ := begins
  simp

/-- A line is read in one way only: each run of blanks ends where the next sign stands. -/
theorem unique (solid : opening ≠ ' ' ∧ opening ≠ '\t') {inner' : List Char}
    (first : BeginsWithInclude opening closing inner text)
    (second : BeginsWithInclude opening closing inner' text) : inner = inner' := by
  obtain ⟨pad, gap, gap', behind, rfl, blanks, _, closes, _⟩ := first
  obtain ⟨pad₂, gap₂, gap₂', behind₂, same, blanks₂, _, closes₂, _⟩ := second
  have word : ∀ w, "include".toList ++ w = 'i' :: ("nclude".toList ++ w) := fun _ => rfl
  rw [word, word] at same
  have sign := Text.cut_unique (not_mem_blanks blanks (by decide)).1
    (not_mem_blanks blanks₂ (by decide)).1 same
  have letter := Text.cut_unique (not_mem_blanks blanks₂ (by decide)).2.1
    (not_mem_blanks blanks (by decide)).2.1 sign.2
  have mark := Text.cut_unique (not_mem_blanks blanks solid).2.2 (not_mem_blanks blanks₂ solid).2.2
    (List.append_cancel_left letter.2)
  exact (Text.cut_unique closes₂ closes mark.2).1

/-- The include stands in the first line of the text. -/
theorem cut (begins : BeginsWithInclude opening closing inner text)
    (marks : opening ≠ '\n' ∧ closing ≠ '\n') :
    ∃ line feed rest, text = line ++ feed ++ rest ∧ '\n' ∉ line ∧
      (feed = ['\n'] ∨ feed = [] ∧ rest = []) ∧ BeginsWithInclude opening closing inner line := by
  obtain ⟨pad, gap, gap', behind, rfl, blanks, some, closes, single⟩ := begins
  obtain ⟨tail, feed, rest, rfl, short, ends⟩ := Text.exists_first_line behind
  refine ⟨pad ++ '#' :: (gap ++ ("include".toList ++ (gap' ++
      opening :: (inner ++ closing :: tail)))), feed, rest, by simp, ?_, ends,
    pad, gap, gap', tail, rfl, blanks, some, closes, single⟩
  obtain ⟨first, second, third⟩ := not_mem_blanks blanks (c := '\n') (by decide)
  simp [first, second, third, single, short, marks.1.symm, marks.2.symm]

end BeginsWithInclude

/-- A pattern for what is included between two marks. -/
structure FindsIncludes (p : Pattern) (opening closing : Char) : Prop where
  shape : p.regex = seqs ((includeFront ++ [char opening]) ++
    group 1 (several (except [closing, '\n'])) :: [char closing])
  joins : p.regex.joins = true
  solid : opening ≠ ' ' ∧ opening ≠ '\t'
  marks : opening ≠ '\n' ∧ closing ≠ '\n'

theorem systemPattern_finds : FindsIncludes systemPattern '<' '>' where
  shape := systemPattern_regex
  joins := by
    rw [systemPattern_regex]
    decide
  solid := by decide
  marks := by decide

theorem quotedPattern_finds : FindsIncludes quotedPattern '"' '"' where
  shape := quotedPattern_regex
  joins := by
    rw [quotedPattern_regex]
    decide
  solid := by decide
  marks := by decide

/-- What follows the indentation of an include, up to the opening mark. -/
def directive : List Regex := [.char '#', many blank] ++ letters "include" ++ [many blank]

theorem includeFront_eq : includeFront = indent ++ directive := by
  simp [includeFront, directive]

theorem takes_directive {p q : Point} (takes : (seqs directive).Takes p q) :
    ∃ gap gap', p.Reads ('#' :: (gap ++ ("include".toList ++ gap'))) q ∧
      (∀ c ∈ gap, blank.mem c = true) ∧ ∀ c ∈ gap', blank.mem c = true := by
  obtain ⟨b, takes, last⟩ := takes_seqs_append.mp takes
  obtain ⟨a, ⟨o, sign, first⟩, word⟩ := takes_seqs_append.mp takes
  obtain ⟨gap, _, blanks, reads⟩ := takes_run.mp first
  obtain ⟨gap', _, blanks', reads'⟩ := takes_run.mp last
  have wordReads : a.Reads "include".toList b := takes_chars.mp word
  have signReads : p.Reads ['#'] o := sign
  exact ⟨gap, gap', signReads.trans (reads.trans (wordReads.trans reads')), blanks, blanks'⟩

theorem accepts_directive {gap gap' : List Char} (blanks : ∀ c ∈ gap, blank.mem c = true)
    (blanks' : ∀ c ∈ gap', blank.mem c = true) :
    Accepts directive ('#' :: (gap ++ ("include".toList ++ gap'))) := by
  have run : ∀ {w : List Char}, (∀ c ∈ w, blank.mem c = true) → Accepts [many blank] w :=
    fun members => .run (Nat.zero_le _) members
  exact (Accepts.chars ['#']).append ((run blanks).append
    ((Accepts.chars "include".toList).append (run blanks')))

namespace FindsIncludes

variable {p : Pattern} {opening closing : Char} (finds : FindsIncludes p opening closing)

include finds

/-- What is captured stands between the marks of a line. -/
theorem include_of_captured {text inner : List Char} (captured : inner ∈ p.captures text) :
    ∃ before line, text = before ++ line ∧ Text.WholeLines before ∧
      BeginsWithInclude opening closing inner line := by
  obtain ⟨a, s, e, b, ⟨u, before⟩, first, body, last, rfl⟩ :=
    spans_of_captured finds.shape ⟨rfl, rfl, rfl⟩ captured
  obtain ⟨o, front, mark⟩ := takes_seqs_append.mp first
  rw [includeFront_eq, takes_indent_iff before] at front
  obtain ⟨whole, pad, k, blanks, readsPad, front⟩ := front
  obtain ⟨gap, gap', readsFront, blanks'⟩ := takes_directive front
  obtain ⟨w, some, members, reads⟩ := takes_several body
  have readsMark : o.Reads [opening] s := mark
  have readsLast : e.Reads [closing] b := last
  -- What is read from the beginning of the line to the closing mark is the whole directive.
  have line := (readsPad.trans (readsFront.trans (readsMark.trans (reads.trans readsLast)))).rest_eq
  have inside : ∀ c ∈ w, c ≠ closing ∧ c ≠ '\n' := fun c listed => by
    simpa using mem_except.mp (members c listed)
  rw [reads.charsTo_eq]
  refine ⟨u, a.rest, before.rest_eq, whole, pad, gap, gap', b.rest, by simpa using line, ?_, some,
    fun listed => (inside _ listed).1 rfl, fun listed => (inside _ listed).2 rfl⟩
  intro c listed
  rw [← blank_mem_iff]
  simp only [List.mem_append] at listed
  rcases listed with listed | listed | listed
  · exact blanks c listed
  · exact blanks'.1 c listed
  · exact blanks'.2 c listed

theorem matchesIn_of_include {text inner : List Char}
    (begins : BeginsWithInclude opening closing inner text) : p.matchesIn text = true := by
  obtain ⟨pad, gap, gap', behind, rfl, blanks, some, closes, single⟩ := begins
  simp only [← blank_mem_iff, List.forall_mem_append] at blanks
  have members : ∀ c ∈ inner, (except [closing, '\n']).mem c = true := fun c listed =>
    mem_except.mpr (by
      simpa using ⟨fun same => closes (same ▸ listed), fun same => single (same ▸ listed)⟩)
  have body : Accepts [group 1 (several (except [closing, '\n']))] inner :=
    Accepts.group (.run (List.length_pos_iff.mpr some) members)
  have accepts := (accepts_directive blanks.2.1 blanks.2.2).append ((Accepts.chars [opening]).append
    (body.append (Accepts.chars [closing])))
  -- The line is cut behind its first blanks, where the directive begins.
  have cut : pad ++ '#' :: (gap ++ ("include".toList ++ (gap' ++
      opening :: (inner ++ closing :: behind)))) = pad ++ ((('#' :: (gap ++ ("include".toList ++
        gap'))) ++ ([opening] ++ (inner ++ [closing]))) ++ behind) := by
    simp
  obtain ⟨o, readsPad, ahead⟩ := Point.exists_reads (p := .start _) cut
  obtain ⟨q, reads, _⟩ := Point.exists_reads ahead
  have parts : (includeFront ++ [char opening]) ++
      group 1 (several (except [closing, '\n'])) :: [char closing] =
      indent ++ (directive ++ ([char opening] ++
        ([group 1 (several (except [closing, '\n']))] ++ [char closing]))) := by
    simp [includeFront_eq]
  rw [Pattern.matchesIn, finds.shape, matchesIn_iff rfl, parts]
  exact ⟨_, q, Point.start_in _, (takes_indent_iff (Point.reads_nil.mpr rfl)).mpr
    ⟨.inl rfl, pad, o, blanks.1, readsPad, accepts o q reads⟩⟩

/-- What a single line includes is captured. -/
theorem captured_of_line {line feed inner : List Char}
    (begins : BeginsWithInclude opening closing inner line) (single : '\n' ∉ line)
    (ends : feed = [] ∨ feed = ['\n']) : inner ∈ p.captures (line ++ feed) := by
  obtain ⟨w, captured⟩ := exists_captured finds.shape ⟨rfl, rfl, rfl⟩
    (finds.matchesIn_of_include (begins.append feed))
  obtain ⟨before, other, cut, whole, begins'⟩ := finds.include_of_captured captured
  rcases whole with rfl | ⟨v, rfl⟩
  · obtain rfl : line ++ feed = other := cut
    rwa [(begins.append feed).unique finds.solid begins']
  · -- Behind the line there is nothing that could be included.
    obtain ⟨y, _, rest⟩ := Text.split_behind single (cut.trans (List.append_assoc v ['\n'] other))
    have nothing : other = [] := by
      rcases ends with rfl | rfl
      · simp at rest
      · cases y with
        | nil => simpa using rest.symm
        | cons c y => simp at rest
    exact absurd nothing begins'.ne_nil

/-- A pattern captures in a text exactly what its lines include. -/
theorem mem_captures_iff {text inner : List Char} : inner ∈ p.captures text ↔
    ∃ before line, text = before ++ line ∧ Text.WholeLines before ∧
      BeginsWithInclude opening closing inner line := by
  constructor
  · exact finds.include_of_captured
  · rintro ⟨before, text, rfl, whole, begins⟩
    obtain ⟨line, feed, rest, rfl, single, ends, first⟩ := begins.cut finds.marks
    rw [Pattern.captures_append finds.joins whole]
    apply List.mem_append_right
    rcases ends with rfl | ⟨rfl, rfl⟩
    · rw [Pattern.captures_append finds.joins (.inr ⟨line, rfl⟩)]
      exact List.mem_append_left _ (finds.captured_of_line first single (.inr rfl))
    · rw [List.append_nil]
      exact finds.captured_of_line first single (.inl rfl)

theorem mem_modules_iff_includes {text : List Char} {header : String} :
    header ∈ ImportRule.modules ⟨p, .whole⟩ text ↔ Includes opening closing text header := by
  rw [mem_modules_iff_captures, Includes]
  simp only [ImportReading.modules, List.mem_singleton, finds.mem_captures_iff]
  grind

end FindsIncludes

theorem mem_system_iff {text : List Char} {header : String} :
    header ∈ modulesBy cFamily.importRules text ↔ Includes '<' '>' text header := by
  rw [mem_modulesBy, ← systemPattern_finds.mem_modules_iff_includes]
  simp [cFamily]

theorem mem_further_iff {text : List Char} {header : String} :
    header ∈ cFamily.furtherModules text ↔
      Includes '"' '"' text header ∧ ¬ Includes '<' '>' text header := by
  rw [mem_furtherModules, mem_system_iff, mem_modulesBy,
    ← quotedPattern_finds.mem_modules_iff_includes]
  simp [cFamily]

/-- The headers in angle brackets come first, and then those that stand in quotes only. A header that
is not a standard one is external if some line has it in angle brackets. -/
structure ListsHeaders (text : List Char) (imports : List Import) : Prop where
  blocks : ∃ system quoted, imports = system ++ quoted ∧ Ascend system ∧ Ascend quoted ∧
    (∀ header, header ∈ system.map (·.name) ↔ Includes '<' '>' text header) ∧
    ∀ header, header ∈ quoted.map (·.name) ↔
      Includes '"' '"' text header ∧ ¬ Includes '<' '>' text header
  origins : ∀ i ∈ imports, (i.origin = .stdlib ↔ i.name ∈ standardHeaders) ∧
    (i.origin = .external ↔ i.name ∉ standardHeaders ∧ Includes '<' '>' text i.name) ∧
    (i.origin = .internal ↔ i.name ∉ standardHeaders ∧
      Includes '"' '"' text i.name ∧ ¬ Includes '<' '>' text i.name)

theorem imports_listsHeaders (source : String) :
    ListsHeaders source.toList (cFamily.imports source) := by
  constructor
  · refine ⟨_, _, cFamily.imports_eq_append source, ascend_of_names ?_, ascend_of_names ?_, ?_, ?_⟩
    · rw [names_of_modules]
      exact Text.ascending_ascends _
    · rw [names_of_modules]
      exact cFamily.furtherModules_ascend _
    · intro header
      rw [names_of_modules, mem_system_iff]
    · intro header
      rw [names_of_modules, mem_further_iff]
  · intro i member
    rw [imports_eq_append, List.mem_append, List.mem_map, List.mem_map] at member
    rcases member with ⟨header, found, rfl⟩ | ⟨header, found, rfl⟩
    · have bracketed := mem_system_iff.mp found
      by_cases standard : header ∈ standardHeaders
      · simp [cFamily, classify, standard]
      · simp [cFamily, classify, standard, bracketed]
    · -- A further header is in no angle brackets, so it is internal unless it is a standard one.
      have quoted := mem_further_iff.mp found
      by_cases standard : header ∈ standardHeaders
      · simp [cFamily, classify, standard]
      · simp [cFamily, classify, standard, quoted]

end CFamily

/-- The imports of a source form a set: none is listed twice or without a name, they stand in the
order of their bytes, and each comes from where its name says. The headers of C and C++ are listed in
two blocks, and come from where the lines that include them say. -/
theorem imports_form_set {l : Language}
    (known : l ∈ LanguageTable.builtin.languages ∨ ∃ d : LanguageDefinition, d.compile = .ok l)
    (source : String) :
    (∀ i ∈ l.imports source, i.name ≠ "") ∧ ((l.imports source).map (·.name)).Nodup ∧
    (l ≠ cFamily → Ascend (l.imports source) ∧ ∀ i, i ∈ l.imports source ↔
      i.origin = l.classify i.name ∧ ∃ rule ∈ l.importRules, i.name ∈ rule.modules source.toList) ∧
    (l = cFamily → CFamily.ListsHeaders source.toList (l.imports source)) := by
  refine ⟨fun i member => name_ne_empty member, nodup_imports_names l source, ?_, ?_⟩
  · intro other
    have noLocal := noLocal_of_known known other
    refine ⟨ascend_of_names (List.pairwise_map.mpr (imports_ascend noLocal source)), fun i => ?_⟩
    exact mem_imports_iff noLocal
  · rintro rfl
    exact CFamily.imports_listsHeaders source

/-- A header that is included in quotes first, and then in angle brackets with blanks around it, is
listed once, as an external one. -/
theorem imports_form_set_twice :
    ⟨"a.h", .external⟩ ∈ cFamily.imports "#include \"a.h\"\n # include< a.h >" ∧
    ((cFamily.imports "#include \"a.h\"\n # include< a.h >").map (·.name)).Nodup := by
  have listed : cFamily ∈ [python, javaScript, go, rust, java, cFamily] := by simp
  obtain ⟨_, distinct, _, headers⟩ :=
    imports_form_set (.inl listed) "#include \"a.h\"\n # include< a.h >"
  obtain ⟨⟨system, quoted, whole, _, _, bracketed, _⟩, origins⟩ := headers rfl
  have included : CFamily.Includes '<' '>' "#include \"a.h\"\n # include< a.h >".toList "a.h" :=
    ⟨by decide, "#include \"a.h\"\n".toList, " # include< a.h >".toList, " a.h ".toList, by decide,
      .inr ⟨"#include \"a.h\"".toList, by decide⟩,
      ⟨[' '], [' '], [], [], by decide, by simp, by decide, by decide, by decide⟩, by decide⟩
  obtain ⟨⟨_, origin⟩, found, rfl⟩ := List.mem_map.mp ((bracketed "a.h").mpr included)
  have member : ⟨"a.h", origin⟩ ∈ cFamily.imports "#include \"a.h\"\n # include< a.h >" := by
    rw [whole]
    exact List.mem_append_left _ found
  have unknown : "a.h" ∉ CFamily.standardHeaders := by decide
  obtain rfl : origin = .external := (origins _ member).2.1.mpr ⟨unknown, included⟩
  exact ⟨member, distinct⟩

end Language

end Ripple
