import Ripple.Proofs.Analysis.ReverseSearch
import Ripple.Proofs.Language.ImportLists

/-!
What a source imports, and what it is found to import. A module that the import rules of a language
find in a source, and that names a file, is found by a template of the language that is filled with
the stem of the file's name.
-/

namespace Ripple.Language

open Regex Language.Part

theorem Python.foundIn_of_rule {rule : ImportRule} {text m : List Char} {hit : Match} {s e : Point}
    (listed : rule ∈ python.importRules ++ python.localImportRules)
    (found : hit ∈ rule.pattern.matchesOf text) (captured : hit.group? 1 = some (s, e))
    (member : m ∈ rule.reading.modules (s.charsTo e)) (some : Text.lastPart '.' m ≠ []) :
    FoundIn Python.forms (Text.lastPart '.' m) text := by
  simp only [python, List.append_nil, List.mem_cons, List.not_mem_nil, or_false] at listed
  rcases listed with rfl | rfl | rfl
  · exact foundIn_of_from found captured member
  · exact foundIn_of_list found captured member some
  · simp [ImportReading.modules] at member

/-- The text that a rule captures is the module, if the module is read from the whole of it and has
no blanks at its ends. -/
theorem captured_eq {l : Language} {rule : ImportRule} {text m : List Char} {hit : Match}
    {s e : Point} (unpadded : Unpadded l text m) (listed : rule ∈ l.importRules ++ l.localImportRules)
    (whole : rule.reading = .whole) (found : hit ∈ rule.pattern.matchesOf text)
    (captured : hit.group? 1 = some (s, e)) (member : m ∈ rule.reading.modules (s.charsTo e)) :
    s.charsTo e = m := by
  rw [whole, ImportReading.modules, List.mem_singleton] at member
  exact unpadded rule listed whole hit found s e captured member.symm

theorem JavaScript.foundIn_of_rule {rule : ImportRule} {text m stem ending : List Char}
    {hit : Match} {s e : Point} (unpadded : Unpadded javaScript text m)
    (listed : rule ∈ javaScript.importRules ++ javaScript.localImportRules)
    (found : hit ∈ rule.pattern.matchesOf text) (captured : hit.group? 1 = some (s, e))
    (member : m ∈ rule.reading.modules (s.charsTo e)) (kind : ending = [] ∨ IsEnding ending)
    (named : Text.lastPart '/' m = stem ++ ending) : FoundIn JavaScript.forms stem text := by
  -- Each pattern captures a text in quotes, and a form has the same parts around its name.
  have quoted : ∀ {front back : List Regex},
      rule.pattern.regex = seqs (front ++ group 1 (several plain) :: back) →
      (seqs (front ++ group 1 (several plain) :: back)).steady = true ∧
        (seqs back).hasGroup 1 = false → rule.reading = .whole →
      (front ++ [leading plain '/'], maybe extension :: back) ∈ forms →
      FoundIn forms stem text := by
    intro front back shape fine whole form
    obtain ⟨p, q, inside, first, body, last⟩ :=
      spans_of_match shape ⟨fine.1, rfl, fine.2⟩ found captured
    obtain ⟨w, _, members, reads⟩ := takes_several body
    obtain rfl : w = m :=
      reads.charsTo_eq.symm.trans (captured_eq unpadded listed whole found captured member)
    exact foundIn form inside first members reads last kind named
  have rules := listed
  simp only [javaScript, List.append_nil, List.mem_cons, List.not_mem_nil, or_false] at rules
  rcases rules with rfl | rfl | rfl | rfl
  · exact quoted fromPattern_regex (by decide) rfl (by simp [forms])
  · exact quoted barePattern_regex (by decide) rfl (by simp [forms])
  · exact quoted requirePattern_regex (by decide) rfl (by simp [forms])
  · simp [ImportReading.modules] at member

/-- Where a path in a block of imports names a file, the form with that name is found. -/
theorem Go.foundIn_of_block {text m : List Char} {hit : Match} {s e : Point}
    (found : hit ∈ importBlockPattern.matchesOf text) (captured : hit.group? 1 = some (s, e))
    (member : m ∈ (ImportReading.quoted quotedPattern).modules (s.charsTo e)) :
    FoundIn Go.forms (Text.lastPart '/' m) text := by
  obtain ⟨p, _, inside, first, body, _⟩ :=
    spans_of_match importBlockPattern_regex (by decide) found captured
  obtain ⟨g, _, within, reads⟩ := takes_run.mp body
  rw [reads.charsTo_eq] at member
  obtain ⟨inner, foundInner, spans⟩ := List.mem_filterMap.mp member
  obtain ⟨⟨s', e'⟩, capturedInner, rfl⟩ := Option.map_eq_some_iff.mp spans
  obtain ⟨p', q', ⟨u, before⟩, opens, name, closes⟩ :=
    spans_of_match quotedPattern_regex (by decide) foundInner capturedInner
  obtain ⟨w, _, members, readsInner⟩ := takes_several name
  -- The block is what precedes the quotation, the quotation, and the rest.
  have shape := (((before.trans opens).trans readsInner).trans closes).rest_eq
  simp only [Point.start, List.append_assoc, List.cons_append, List.nil_append] at shape
  rw [readsInner.charsTo_eq]
  rw [shape] at reads
  obtain ⟨a, readsU, reads⟩ := Point.reads_append.mp reads
  obtain ⟨b, openQuote, reads⟩ := reads.uncons
  obtain ⟨c, readsW, reads⟩ := Point.reads_append.mp reads
  obtain ⟨d, closeQuote, _⟩ := reads.uncons
  have front : (many (.compl (.single ')'))).Takes s a := by
    refine takes_run.mpr ⟨u, Nat.zero_le _, fun x listed => within x ?_, readsU⟩
    rw [shape]
    exact List.mem_append_left _ listed
  have form : (blockFront ++ [many (.compl (.single ')')), char '"'] ++ [leading plain '/'],
      [.char '"']) ∈ forms := by simp [forms]
  refine foundIn form inside ?_ members readsW closeQuote
  exact takes_seqs_append.mpr ⟨s, first, a, front, openQuote⟩

theorem Go.foundIn_of_rule {rule : ImportRule} {text m : List Char} {hit : Match} {s e : Point}
    (unpadded : Unpadded go text m) (listed : rule ∈ go.importRules ++ go.localImportRules)
    (found : hit ∈ rule.pattern.matchesOf text) (captured : hit.group? 1 = some (s, e))
    (member : m ∈ rule.reading.modules (s.charsTo e)) :
    FoundIn Go.forms (Text.lastPart '/' m) text := by
  have rules := listed
  simp only [go, List.append_nil, List.mem_cons, List.not_mem_nil, or_false] at rules
  rcases rules with rfl | rfl
  · obtain ⟨p, q, inside, first, body, last⟩ :=
      spans_of_match importPattern_regex (by decide) found captured
    obtain ⟨w, _, members, reads⟩ := takes_several body
    obtain rfl : w = m :=
      reads.charsTo_eq.symm.trans (captured_eq unpadded listed rfl found captured member)
    have form : (importFront ++ [leading plain '/'], [char '"']) ∈ forms := by simp [forms]
    exact foundIn form inside first members reads last
  · exact foundIn_of_block found captured member

theorem Java.reads_name {s e : Point} (takes : Java.name.Takes s e) :
    ∃ w, s.Reads w e ∧ ∀ c ∈ w, Unicode.isSpace c = false := by
  obtain ⟨o, path, star⟩ := takes
  obtain ⟨w, _, members, reads⟩ := takes_several path
  have solid : ∀ c ∈ w, Unicode.isSpace c = false := fun c listed =>
    Python.dotted_not_space (members c listed)
  rcases takes_optional.mp star with rfl | ⟨b, dot, asterisk⟩
  · exact ⟨w, reads, solid⟩
  · refine ⟨_, reads.trans (dot.trans asterisk), ?_⟩
    intro c listed
    rcases List.mem_append.mp listed with listed | listed
    · exact solid c listed
    · simp only [List.cons_append, List.nil_append, List.mem_cons, List.not_mem_nil, or_false]
        at listed
      rcases listed with rfl | rfl <;> rfl

theorem Java.foundIn_of_rule {rule : ImportRule} {text m stem : List Char}
    {words star : List (List Char)} {hit : Match} {s e : Point}
    (listed : rule ∈ java.importRules ++ java.localImportRules)
    (found : hit ∈ rule.pattern.matchesOf text) (captured : hit.group? 1 = some (s, e))
    (member : m ∈ rule.reading.modules (s.charsTo e))
    (parts : ∀ word ∈ words, word ≠ [] ∧ ∀ c ∈ word, Unicode.isWord c = true)
    (ends : star = [] ∨ star = [['*']]) (pieces : Text.splitOn '.' m = words ++ star)
    (named : stem ∈ words) : FoundIn Java.forms stem text := by
  simp only [java, List.append_nil, List.mem_cons, List.not_mem_nil, or_false] at listed
  obtain rfl := listed
  obtain ⟨p, q, inside, first, body, last⟩ :=
    spans_of_match importPattern_regex (by decide) found captured
  obtain ⟨w, reads, solid⟩ := reads_name body
  have trimmed : Text.trim w = w := Text.trim_eq_self
    (fun c here => solid c (List.mem_of_mem_head? here))
    (fun c here => solid c (List.mem_of_mem_getLast? here))
  obtain rfl : m = w := by
    rwa [reads.charsTo_eq, ImportReading.modules, trimmed, List.mem_singleton] at member
  exact foundIn inside first reads last parts ends pieces named

theorem CFamily.foundIn_of_rule {rule : ImportRule} {text m stem ending : List Char} {hit : Match}
    {s e : Point} (unpadded : Unpadded cFamily text m)
    (listed : rule ∈ cFamily.importRules ++ cFamily.localImportRules)
    (found : hit ∈ rule.pattern.matchesOf text) (captured : hit.group? 1 = some (s, e))
    (member : m ∈ rule.reading.modules (s.charsTo e)) (some : ending ≠ [])
    (word : ∀ c ∈ ending, Unicode.isWord c = true)
    (named : Text.lastPart '/' m = stem ++ '.' :: ending) (noQuote : '"' ∉ m) (noAngle : '>' ∉ m) :
    FoundIn CFamily.forms stem text := by
  -- Both rules are the same but for the marks around the module.
  have quoted : ∀ {opening closing : Char},
      rule.pattern.regex = seqs ((includeFront ++ [char opening]) ++
        .group 1 (several (except [closing, '\n'])) :: [.char closing]) →
      rule.reading = .whole → opening ∈ ['<', '"'] → closing ∈ ['>', '"'] → FoundIn forms stem text := by
    intro opening closing shape whole opens closes
    obtain ⟨p, q, inside, first, body, last⟩ :=
      spans_of_match shape ⟨rfl, rfl, rfl⟩ found captured
    obtain ⟨o, first, openMark⟩ := takes_seqs_append.mp first
    obtain ⟨w, _, members, reads⟩ := takes_several body
    obtain rfl : w = m :=
      reads.charsTo_eq.symm.trans (captured_eq unpadded listed whole found captured member)
    have plain : ∀ c ∈ w, (except ['>', '"', '\n']).mem c = true := by
      intro c here
      have inLine := mem_except.mp (members c here)
      simp only [List.mem_cons, List.not_mem_nil, or_false, not_or] at inLine
      rw [mem_except]
      simp only [List.mem_cons, List.not_mem_nil, or_false, not_or]
      exact ⟨fun same => noAngle (same ▸ here), fun same => noQuote (same ▸ here), inLine.2⟩
    refine foundIn inside first ⟨opening, ?_, openMark⟩ plain reads ⟨closing, ?_, last⟩ some word
      named
    · simpa [CharSet.mem_unions, CharSet.mem_single] using opens
    · simpa [CharSet.mem_unions, CharSet.mem_single] using closes
  have rules := listed
  simp only [cFamily, List.cons_append, List.nil_append, List.mem_cons, List.not_mem_nil, or_false]
    at rules
  rcases rules with rfl | rfl
  · exact quoted systemPattern_regex rfl (by simp) (by simp)
  · exact quoted quotedPattern_regex rfl (by simp) (by simp)

/-- A source that imports a module which names a file is found to import it by the patterns of its
language for that file. -/
theorem imports_of_names {l : Language} {source stem : String} {i : Import}
    (member : i ∈ l.imports source) (named : Names l i.name.toList stem.toList)
    (unpadded : l = javaScript ∨ l = go ∨ l = cFamily → Unpadded l source.toList i.name.toList)
    (short : Point.size stem.toList ≤ 255) :
    ∃ patterns, l.dependencyPatterns stem = .ok patterns ∧
      Engine.imports stem patterns source = true := by
  -- A name of the size of a stem fits into every template, so that its patterns exist.
  have conclude : ∀ {forms : List Form}, l.Formed forms →
      (∀ form ∈ forms, ((∀ r ∈ form.1 ++ form.2, r.steady = true) ∧
        partsBound (form.1 ++ form.2) ≤ 2000000)) →
      FoundIn forms stem.toList source.toList →
      ∃ patterns, l.dependencyPatterns stem = .ok patterns ∧
        Engine.imports stem patterns source = true := by
    intro forms formed fine found
    have fitting := formed.not_tooBig (fun form listed => (fine form listed).2)
      (Nat.le_trans short (by decide))
    exact imports_of_foundIn formed (fun form listed => (fine form listed).1) fitting found
  obtain ⟨rule, listed, modules⟩ := mem_imports member
  obtain ⟨hit, found, s, e, captured, read⟩ := mem_modules modules
  generalize i.name.toList = m at *
  generalize shape : stem.toList = n at *
  cases named with
  | python some named =>
    subst named
    exact conclude Python.formed (by decide)
      (Python.foundIn_of_rule listed found captured read some)
  | javaScript kind named =>
    exact conclude JavaScript.formed (by decide)
      (JavaScript.foundIn_of_rule (unpadded (by simp)) listed found captured read kind named)
  | go named =>
    subst named
    exact conclude Go.formed (by decide)
      (Go.foundIn_of_rule (unpadded (by simp)) listed found captured read)
  | java parts ends pieces named =>
    exact conclude Java.formed (by decide)
      (Java.foundIn_of_rule listed found captured read parts ends pieces named)
  | cFamily some word named noQuote noAngle =>
    exact conclude CFamily.formed (by decide)
      (CFamily.foundIn_of_rule (unpadded (by simp)) listed found captured read some word named
        noQuote noAngle)

/-- The two directions of the analysis agree: if the imports of a file that the walk lists contain a
module that names the target, the search for the target's dependents reports the file. -/
theorem importer_reported {e : Engine} {fs : Files} {target root below : List OsString}
    {stem source : String} {l : Language} {i : Import}
    (unlimited : e.settings.deadlineMs = none) (names : ∀ name ∈ target, Path.IsName name)
    (stemmed : Path.textStem? (Files.pathOf target) = some stem)
    (walked : below ∈ fs.walk (e.searchFilter target) root)
    (decoded : (fs.readAt (root ++ below) >>= Files.decode) = .ok source)
    (written : e.table.ofPath? (Files.pathOf (root ++ below)) = some l)
    (imported : i ∈ (Extraction.imports source (some l)).items)
    (named : Names l i.name.toList stem.toList)
    (unpadded : l = javaScript ∨ l = go ∨ l = cFamily → Unpadded l source.toList i.name.toList) :
    Path.ofComponents below ∈ (e.findDependents fs e.settings.deadline target root).1.files := by
  obtain ⟨patterns, compiled, found⟩ :=
    imports_of_names imported named unpadded (Files.stem_short names stemmed)
  exact (Engine.mem_findDependents_iff unlimited).mpr ⟨below, walked, rfl, stem, l, source,
    patterns, stemmed, written, decoded, compiled, Engine.imports_iff.mp found⟩

/-- A project with a file that imports another one in a list, under a name of its own. -/
def listingProject : Files :=
  ⟨.dir [("app.py", .file "import os, pkg.util as u\n".toUTF8),
    ("util.py", .file "def f():\n    pass\n".toUTF8)], []⟩

theorem listingProject_wellFormed : listingProject.top.WellFormed :=
  Node.wellFormed_flat (by decide) (by decide) (by decide)

theorem listingProject_walked : (["app.py"] : List OsString) ∈
    listingProject.walk (Engine.searchFilter ⟨{}, .builtin⟩ ["util.py"]) [] := by
  refine (Files.mem_walk_iff listingProject_wellFormed).mpr ⟨⟨_, rfl, by decide⟩, ?_, trivial⟩
  rintro node found
  cases found
  decide

theorem listing_imports : ⟨"pkg.util", .external⟩ ∈
    (Extraction.imports "import os, pkg.util as u\n" (some python)).items := by
  have listed : "pkg.util" ∈ ImportRule.modules ⟨Python.importPattern, .list⟩
      "import os, pkg.util as u\n".toList := by
    rw [ImportRule.modules, Pattern.matchesOf, Python.importPattern_regex]
    decide +kernel
  refine List.mem_append_left _ (List.mem_map.mpr ⟨"pkg.util", Text.mem_ascending.mpr ?_, ?_⟩)
  · exact List.mem_flatMap.mpr ⟨_, by simp [python], listed⟩
  · decide

theorem listing_imports_util : ∃ patterns, python.dependencyPatterns "util" = .ok patterns ∧
    Engine.imports "util" patterns "import os, pkg.util as u\n" = true :=
  imports_of_names listing_imports (.python (by decide) (by decide))
    (by rintro (same | same | same) <;> exact absurd (congrArg name same) (by decide)) (by decide)

theorem importer_reported_listing : Path.ofComponents ["app.py"] ∈
    (Engine.findDependents ⟨{}, .builtin⟩ listingProject (Settings.deadline {}) ["util.py"] []).1.files := by
  have stemmed : Path.textStem? (Files.pathOf ["util.py"]) = some "util" := by decide
  have decoded : (listingProject.readAt ["app.py"] >>= Files.decode) =
      .ok "import os, pkg.util as u\n" := by decide
  have named : Names python "pkg.util".toList "util".toList :=
    .python (by decide) (by decide)
  refine importer_reported (e := ⟨{}, .builtin⟩) rfl (by decide) stemmed listingProject_walked decoded
    rfl listing_imports named ?_
  rintro (same | same | same) <;> exact absurd (congrArg name same) (by decide)

end Ripple.Language
