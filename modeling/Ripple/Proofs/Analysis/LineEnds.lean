import Ripple.Proofs.Analysis.Locality
import Ripple.Proofs.Analysis.Precheck
import Ripple.Proofs.Files.LineEnds
import Ripple.Proofs.Language.Settling

/-!
Line ends do not matter to an analysis with the built-in languages. If some files have a carriage
return put in front of each line feed, their symbols and imports are the same, on the same lines,
and so are the lines on which symbols are used. So both analyses come to the same result.
-/

namespace Ripple

open Ripple.Path Text

theorem Extraction.exports_crlf (file : OsString) (source : String) :
    exports (crlfSource source) (LanguageTable.builtin.ofPath? file) =
      exports source (LanguageTable.builtin.ofPath? file) := by
  cases written : LanguageTable.builtin.ofPath? file with
  | none => rfl
  | some l =>
    have settled := Language.builtin_settled (LanguageTable.mem_of_ofPath? written)
    rw [exports, exports, settled.exports?]

theorem Extraction.imports_crlf (file : OsString) (source : String) :
    imports (crlfSource source) (LanguageTable.builtin.ofPath? file) =
      imports source (LanguageTable.builtin.ofPath? file) := by
  cases written : LanguageTable.builtin.ofPath? file with
  | none => rfl
  | some l =>
    have settled := Language.builtin_settled (LanguageTable.mem_of_ofPath? written)
    rw [imports, imports, settled.modules]

namespace Engine

/-- A report tells of the symbols, of what the search finds, and of the uses in these files. -/
theorem reportOn_congr {e : Engine} {fs fs' : Files} {file : OsString} {source source' : String}
    {target root : List OsString} {change : Option String} {expired : Deadline} {schedule : Schedule}
    (exports : Extraction.exports source' (e.table.ofPath? file) =
      Extraction.exports source (e.table.ofPath? file))
    (search : (e.findDependents fs' expired target root schedule).1 =
      (e.findDependents fs expired target root schedule).1)
    (usages : ∀ exports files,
      e.trackUsages fs' root exports files = e.trackUsages fs root exports files) :
    (e.reportOn fs' file source' target root change expired schedule).1 =
      (e.reportOn fs file source target root change expired schedule).1 := by
  simp only [reportOn, exports, search, usages]

section Converted

variable {old new : Files} (converts : Files.Converts old new) {settings : Settings}

include converts

theorem usableLines_converts (root : List OsString) (file : OsString) :
    usableLines ⟨settings, .builtin⟩ new root file =
      usableLines ⟨settings, .builtin⟩ old root file := by
  -- `unfold`: the equations of the definition are costly to derive.
  unfold usableLines
  rcases converts.rereads (join (Files.pathOf root) file) with same | ⟨source, plain, was, is⟩
  · simp only [same]
  · simp only [was, is, toList_crlfSource, lines_crlf plain]
    cases written : LanguageTable.builtin.ofPath? (join (Files.pathOf root) file) with
    | none => rfl
    | some l =>
      have settled := Language.builtin_settled (LanguageTable.mem_of_ofPath? written)
      simp only [settled.importLines]

theorem trackUsages_converts (root : List OsString) (exports : List Export) (files : List OsString) :
    trackUsages ⟨settings, .builtin⟩ new root exports files =
      trackUsages ⟨settings, .builtin⟩ old root exports files := by
  rw [trackUsages_eq, trackUsages_eq]
  refine congrArg (UsageMap.ofNames (publicNames exports)) (funext fun name => ?_)
  exact usesAcross_congr (fun file _ => usableLines_converts converts root file) name

/-- A candidate imports the module in both trees or in neither. -/
theorem isDependent_converts {stem : String} (feed : '\n' ∉ stem.toList)
    (carriage : '\r' ∉ stem.toList) (root : List OsString) :
    (query ⟨settings, .builtin⟩ new root stem).isDependent =
      (query ⟨settings, .builtin⟩ old root stem).isDependent := by
  -- A match alone decides, since the test that comes before it is redundant.
  rw [← isDependent_unchecked, ← isDependent_unchecked]
  funext below
  rw [Bool.eq_iff_iff, Query.isDependent_iff, Query.isDependent_iff]
  rcases converts.rereadsAt (root ++ below) with same | ⟨source, plain, was, is⟩
  · simp only [same]
  · simp only [was, is, Except.ok.injEq]
    refine exists_congr fun l => ?_
    constructor
    · rintro ⟨_, patterns, written, rfl, compiled, passed, pattern, listed, found⟩
      rw [toList_crlfSource, Language.dependency_matchesIn_crlf
        (LanguageTable.mem_of_ofPath? written) feed carriage compiled listed] at found
      exact ⟨source, patterns, written, rfl, compiled, passed, pattern, listed, found⟩
    · rintro ⟨_, patterns, written, rfl, compiled, passed, pattern, listed, found⟩
      refine ⟨_, patterns, written, rfl, compiled, passed, pattern, listed, ?_⟩
      rwa [toList_crlfSource, Language.dependency_matchesIn_crlf
        (LanguageTable.mem_of_ofPath? written) feed carriage compiled listed]

theorem locatePair_converts (file root : OsString) :
    locatePair new file root = locatePair old file root := by
  rw [locatePair, locatePair, converts.isDir_eq, converts.locate_eq, converts.locate_eq]

/-- The target has the same symbols and imports in both trees, or cannot be read for the same
reason. -/
theorem readTarget_converts (file : OsString) :
    (∃ source source', readTarget old file = .ok source ∧ readTarget new file = .ok source' ∧
      Extraction.exports source' (LanguageTable.builtin.ofPath? file) =
        Extraction.exports source (LanguageTable.builtin.ofPath? file) ∧
      Extraction.imports source' (LanguageTable.builtin.ofPath? file) =
        Extraction.imports source (LanguageTable.builtin.ofPath? file)) ∨
    ∃ cause, readTarget old file = .error cause ∧ readTarget new file = .error cause := by
  rw [readTarget, readTarget]
  rcases converts.rereads file with same | ⟨source, _, was, is⟩
  · rw [same]
    cases old.readText file with
    | ok source => exact .inl ⟨source, source, rfl, rfl, rfl, rfl⟩
    | error cause => exact .inr ⟨_, rfl, rfl⟩
  · rw [was, is]
    exact .inl ⟨source, crlfSource source, rfl, rfl, Extraction.exports_crlf file source,
      Extraction.imports_crlf file source⟩

variable (formed : old.top.WellFormed) (formed' : new.top.WellFormed)
  (within : ∀ limit, settings.maxFileSize = some limit → Files.SameWithin limit old new)

include formed formed' within

theorem findDependents_converts {target : List OsString}
    (named : ∀ stem, textStem? (Files.pathOf target) = some stem →
      '\n' ∉ stem.toList ∧ '\r' ∉ stem.toList)
    (expired : Deadline) (root : List OsString) (schedule : Schedule) :
    (findDependents ⟨settings, .builtin⟩ new expired target root schedule).1 =
      (findDependents ⟨settings, .builtin⟩ old expired target root schedule).1 := by
  cases stemmed : textStem? (Files.pathOf target) with
  | none => rw [findDependents, findDependents, searchBy, searchBy, stemmed]
  | some stem =>
    obtain ⟨feed, carriage⟩ := named stem stemmed
    have walked : new.walk (searchFilter ⟨settings, .builtin⟩ target) root =
        old.walk (searchFilter ⟨settings, .builtin⟩ target) root :=
      converts.walk_eq formed formed' within root
    -- Both trees have the same candidates, and each of them is judged alike.
    have reported : (query ⟨settings, .builtin⟩ new root stem).reports expired =
        (query ⟨settings, .builtin⟩ old root stem).reports expired := by
      funext below
      rw [Query.reports, Query.reports, isDependent_converts converts feed carriage]
    rw [findDependents_eq new expired root schedule stemmed,
      findDependents_eq old expired root schedule stemmed, walked, reported]

variable {file : OsString} (named : ∀ target stem, old.locate file = .ok target →
  textStem? (Files.pathOf target) = some stem → '\n' ∉ stem.toList ∧ '\r' ∉ stem.toList)

include named

/-- The search finds the same in both trees, or fails for the same reason. -/
theorem searchDependents_converts (root : OsString) (expired : Deadline) (schedule : Schedule) :
    (∃ found found',
      searchDependents ⟨settings, .builtin⟩ old file root expired schedule = .ok found ∧
      searchDependents ⟨settings, .builtin⟩ new file root expired schedule = .ok found' ∧
      found'.1 = found.1) ∨
    ∃ cause, searchDependents ⟨settings, .builtin⟩ old file root expired schedule = .error cause ∧
      searchDependents ⟨settings, .builtin⟩ new file root expired schedule = .error cause := by
  rw [searchDependents, searchDependents, locatePair_converts converts]
  cases pair : locatePair old file root with
  | error cause => exact .inr ⟨cause, rfl, rfl⟩
  | ok found =>
    have located := (locatePair_eq_ok_iff.mp pair).1
    exact .inl ⟨_, _, rfl, rfl, findDependents_converts converts formed formed' within
      (fun stem => named found.1 stem located) expired found.2 schedule⟩

theorem impactReport_converts (root : OsString) (change : Option String) (expired : Deadline)
    (schedule : Schedule) :
    (impactReport ⟨settings, .builtin⟩ new file root change expired schedule).map (·.1) =
      (impactReport ⟨settings, .builtin⟩ old file root change expired schedule).map (·.1) := by
  rw [impactReport, impactReport, locatePair_converts converts]
  rcases readTarget_converts converts file with
    ⟨source, source', was, is, exports, _⟩ | ⟨cause, was, is⟩
  · rw [was, is]
    cases pair : locatePair old file root with
    | error => simp only [bind, Except.bind, Except.map]
    | ok found =>
      have located := (locatePair_eq_ok_iff.mp pair).1
      have same := findDependents_converts converts formed formed' within
        (fun stem => named found.1 stem located) expired found.2 schedule
      -- The text of the target enters the report through its symbols only.
      have reports : (reportOn ⟨settings, .builtin⟩ new file source' found.1 found.2 change expired
          schedule).1 =
          (reportOn ⟨settings, .builtin⟩ old file source found.1 found.2 change expired
            schedule).1 := reportOn_congr exports same (trackUsages_converts converts found.2)
      simp only [bind, Except.bind, pure, Except.pure, Except.map]
      rw [reports]
  · simp only [was, is, bind, Except.bind, Except.map]

theorem dependencyMap_converts (root : Option OsString) (reverse : Bool) (expired : Deadline)
    (schedule : Schedule) :
    (dependencyMap ⟨settings, .builtin⟩ new file root reverse expired schedule).map (·.1) =
      (dependencyMap ⟨settings, .builtin⟩ old file root reverse expired schedule).map (·.1) := by
  rw [dependencyMap, dependencyMap]
  rcases readTarget_converts converts file with
    ⟨source, source', was, is, _, imports⟩ | ⟨cause, was, is⟩
  · rw [was, is]
    cases reverse with
    | false => simp only [bind, Except.bind, pure, Except.pure, Except.map, imports]
    | true =>
      cases root with
      | none => simp only [bind, Except.bind, pure, Except.pure, Except.map, imports]
      | some root =>
        -- Only a search looks at files other than the target.
        rcases searchDependents_converts converts formed formed' within named root expired
          schedule with ⟨found, found', first, second, scans⟩ | ⟨cause, first, second⟩
        · simp only [bind, Except.bind, pure, Except.pure, Except.map, imports, first, second,
            scans]
        · simp only [bind, Except.bind, Except.map, first, second]
  · simp only [was, is, bind, Except.bind, Except.map]

end Converted

/-- Line ends do not matter: if in some files of a tree, none of which has a carriage return, each
line feed gets one, and no file thereby crosses the greatest size, then both analyses with the
built-in languages have the same results. -/
theorem line_ends_irrelevant {settings : Settings} {old new : Files} {file : OsString}
    (formed : old.top.WellFormed) (formed' : new.top.WellFormed)
    (converts : Files.Converts old new)
    (within : ∀ limit, settings.maxFileSize = some limit → Files.SameWithin limit old new)
    (named : ∀ target stem, old.locate file = .ok target →
      textStem? (Files.pathOf target) = some stem → '\n' ∉ stem.toList ∧ '\r' ∉ stem.toList)
    (expired : Deadline) (schedule : Schedule) :
    (∀ root change,
      (analyzeImpact ⟨settings, .builtin⟩ new file root change expired schedule).result =
        (analyzeImpact ⟨settings, .builtin⟩ old file root change expired schedule).result) ∧
    ∀ root reverse,
      (mapDependencies ⟨settings, .builtin⟩ new file root reverse expired schedule).result =
        (mapDependencies ⟨settings, .builtin⟩ old file root reverse expired schedule).result := by
  constructor
  · intro root change
    rw [analyzeImpact, analyzeImpact, result_recorded, result_recorded]
    exact impactReport_converts converts formed formed' within named root change expired schedule
  · intro root reverse
    rw [mapDependencies, mapDependencies, result_recorded, result_recorded]
    exact dependencyMap_converts converts formed formed' within named root reverse expired schedule

/-- A project of a module and of a file beside it. -/
def moduleProject (app util : ByteArray) : Files :=
  ⟨.dir [("app.py", .file app), ("util.py", .file util)], []⟩

theorem moduleProject_wellFormed (app util : ByteArray) : (moduleProject app util).top.WellFormed :=
  Node.wellFormed_flat (by simp [Node.kind]) (by simp) (by simp; decide)

theorem kindAt?_moduleProject (app util : ByteArray) (location : List OsString) :
    (moduleProject app util).kindAt? location =
      if location = [] then some .dir
      else if location = ["app.py"] then some (.file app)
      else if location = ["util.py"] then some (.file util)
      else none := by
  cases location with
  | nil => rfl
  | cons name rest =>
    by_cases first : name = "app.py"
    · subst first
      cases rest <;> simp [Files.kindAt?, moduleProject, Node.at?, Node.kind]
    · by_cases second : name = "util.py"
      · subst second
        cases rest <;> simp [Files.kindAt?, moduleProject, Node.at?, Node.kind, List.lookup_cons,
          beq_false_of_ne first]
      · simp [Files.kindAt?, moduleProject, Node.at?, List.lookup_cons, beq_false_of_ne first,
          beq_false_of_ne second, first, second]

theorem moduleProject_converts {app util : ByteArray} (plain : 13 ∉ app.toList)
    (plain' : 13 ∉ util.toList) :
    (moduleProject app util).Converts (moduleProject (crlfContent app) (crlfContent util)) where
  workDir := rfl
  kinds location := by
    rw [kindAt?_moduleProject, kindAt?_moduleProject]
    split_ifs
    · exact .inl rfl
    · exact .inr ⟨app, plain, rfl, rfl⟩
    · exact .inr ⟨util, plain', rfl, rfl⟩
    · exact .inl rfl

theorem moduleProject_within {app util : ByteArray} {limit : Nat}
    (first : (crlfContent app).size ≤ limit ↔ app.size ≤ limit)
    (second : (crlfContent util).size ≤ limit ↔ util.size ≤ limit) : Files.SameWithin limit
      (moduleProject app util) (moduleProject (crlfContent app) (crlfContent util)) := by
  intro location content content' was is
  rw [kindAt?_moduleProject] at was is
  split_ifs at was is
  · cases was
  · cases was
    cases is
    exact first
  · cases was
    cases is
    exact second

def appSource : String := "from util import (\n    f,\n)\n\nf()\n"

def utilSource : String := "def f():\n    pass\n"

theorem moduleProject_resolves :
    Resolves (moduleProject appSource.toUTF8 utilSource.toUTF8) "util.py" "." utilSource ["util.py"]
      [] where
  located := by decide
  readable := by decide
  rooted := by decide
  isDir := rfl

/-- A module whose only dependent imports it by a statement of several lines. With carriage returns
that file has the greatest size that is allowed. -/
theorem line_ends_irrelevant_module : ∃ report,
    (analyzeImpact ⟨{ maxFileSize := some 38 }, .builtin⟩
      (moduleProject "from util import (\r\n    f,\r\n)\r\n\r\nf()\r\n".toUTF8
        "def f():\r\n    pass\r\n".toUTF8) "util.py" "." none).result = .ok report ∧
    (analyzeImpact ⟨{ maxFileSize := some 38 }, .builtin⟩
      (moduleProject appSource.toUTF8 utilSource.toUTF8) "util.py" "." none).result =
        .ok report := by
  have app : "from util import (\r\n    f,\r\n)\r\n\r\nf()\r\n".toUTF8 =
      crlfContent appSource.toUTF8 := by
    rw [crlfContent_toUTF8]
    rfl
  have util : "def f():\r\n    pass\r\n".toUTF8 = crlfContent utilSource.toUTF8 := by
    rw [crlfContent_toUTF8]
    rfl
  have converts := @moduleProject_converts appSource.toUTF8 utilSource.toUTF8 (by decide +kernel)
    (by decide +kernel)
  have within := @moduleProject_within appSource.toUTF8 utilSource.toUTF8 38 (by decide +kernel)
    (by decide +kernel)
  have stemmed : textStem? (Files.pathOf ["util.py"]) = some "util" := by decide
  obtain ⟨report, ok⟩ : ∃ report, (analyzeImpact ⟨{ maxFileSize := some 38 }, .builtin⟩
      (moduleProject appSource.toUTF8 utilSource.toUTF8) "util.py" "." none).result = .ok report :=
    ⟨_, analyzeImpact_eq_ok_iff.mpr ⟨utilSource, _, _, moduleProject_resolves, rfl⟩⟩
  rw [app, util]
  refine ⟨report, Eq.trans ?_ ok, ok⟩
  refine (line_ends_irrelevant (moduleProject_wellFormed _ _) (moduleProject_wellFormed _ _)
    converts ?_ ?_ _ _).1 "." none
  · rintro limit ⟨⟩
    exact within
  · intro target stem located named
    rw [moduleProject_resolves.located] at located
    cases located
    rw [stemmed] at named
    cases named
    decide

end Engine

end Ripple
