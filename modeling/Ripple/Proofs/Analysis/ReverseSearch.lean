import Ripple.Analysis.Report
import Ripple.Proofs.Analysis.Workers
import Ripple.Proofs.Files.Walking

/-!
The search for dependents is exact. A file is reported if and only if the walk lists it, it is not
the target, and a dependency pattern of its language for the target's stem matches its text. Since
walked files are named by their locations, the target is left out however it is given. A stem that is
no text has no patterns: nothing is reported then, and nothing is walked.
-/

namespace Ripple.Engine

open Ripple.Path Node

/-- What a search for dependents walks through, the target included. -/
def walkFilter (e : Engine) : WalkFilter := { e.searchFilter [] with exclude := none }

theorem searchFilter_eq (e : Engine) (target : List OsString) :
    e.searchFilter target = e.walkFilter.without target := rfl

/-- The files that the walk lists and that are not the target, by their places below the root. -/
def candidates (e : Engine) (fs : Files) (root target : List OsString) : List (List OsString) :=
  (fs.walk e.walkFilter root).filter fun below => root ++ below ≠ target

/-- A file with a language and a text imports a target: the text contains the stem of the target's
name, which is a text itself, and matches one of the patterns of the language for it. -/
def Imports (e : Engine) (fs : Files) (target location : List OsString) : Prop :=
  ∃ stem l source patterns, textStem? (Files.pathOf target) = some stem ∧
    e.table.ofPath? (Files.pathOf location) = some l ∧
    (fs.readAt location >>= Files.decode) = .ok source ∧
    l.dependencyPatterns stem = .ok patterns ∧ stem.toList <:+: source.toList ∧
    ∃ pattern ∈ patterns, pattern.matchesIn source.toList = true

/-- What the workers of a search for the dependents of a module look for. -/
abbrev query (e : Engine) (fs : Files) (root : List OsString) (stem : String) : Query :=
  ⟨e, fs, root, stem, mentions stem⟩

theorem isDependent_iff {e : Engine} {fs : Files} {root target below : List OsString} {stem : String}
    (stemmed : textStem? (Files.pathOf target) = some stem) :
    (e.query fs root stem).isDependent below = true ↔ e.Imports fs target (root ++ below) := by
  have mentioned : ∀ source, mentions stem source = true ↔ stem.toList <:+: source.toList :=
    fun source => Text.contains_iff
  simp only [Query.isDependent_iff, mentioned, Imports, stemmed, Option.some.injEq, exists_and_left,
    exists_eq_left']

/-- What a search that comes to its end reports. -/
structure Reports (e : Engine) (fs : Files) (root target : List OsString) (files : List OsString)
    (scanned : Nat) : Prop where
  mem_iff : ∀ path, path ∈ files ↔ ∃ below ∈ e.candidates fs root target,
    path = ofComponents below ∧ e.Imports fs target (root ++ below)
  /-- Each path is below the next one, in the order of the components. -/
  ascends : (files.map components).Pairwise (· < ·)
  /-- Each path, taken from the root on, leads to a location other than the target. -/
  apart : ∀ path ∈ files, ∃ location, fs.locate (join (Files.pathOf root) path) = .ok location ∧
    location ≠ target
  /-- All candidates are walked, or none of them if there is nothing to look for. -/
  scanned_eq : scanned = if (textStem? (Files.pathOf target)).isSome then
    (e.candidates fs root target).length else 0

section Search

variable {e : Engine} {fs : Files} {root target : List OsString}

theorem walk_searchFilter (formed : fs.top.WellFormed) :
    fs.walk (e.searchFilter target) root = e.candidates fs root target := by
  rw [searchFilter_eq, Files.walk_without rfl formed, candidates]

/-- A candidate is a file below the root, at a place made of names. -/
theorem candidate_is_file (formed : fs.top.WellFormed) {below : List OsString}
    (member : below ∈ e.candidates fs root target) :
    (∃ content, fs.top.at? (root ++ below) = some (.file content)) ∧
      (∀ name ∈ root ++ below, IsName name) ∧ root ++ below ≠ target := by
  obtain ⟨listed, differs⟩ := List.mem_filter.mp member
  obtain ⟨⟨content, found, _⟩, _⟩ := (Files.mem_walk_iff formed).mp listed
  exact ⟨⟨content, found⟩, (formed.at? found).2, by simpa using differs⟩

theorem candidate_ne_nil (formed : fs.top.WellFormed) (isDir : fs.kindAt? root = some .dir)
    {below : List OsString} (member : below ∈ e.candidates fs root target) : below ≠ [] := by
  rintro rfl
  obtain ⟨⟨content, found⟩, _⟩ := candidate_is_file formed member
  obtain ⟨entries, dir⟩ := Files.kindAt?_eq_dir.mp isDir
  rw [List.append_nil, dir] at found
  cases found

/-- A path from the root to a candidate leads to the candidate. -/
theorem locate_candidate (formed : fs.top.WellFormed) (isDir : fs.kindAt? root = some .dir)
    {below : List OsString} (member : below ∈ e.candidates fs root target) :
    fs.locate (join (Files.pathOf root) (ofComponents below)) = .ok (root ++ below) := by
  obtain ⟨⟨content, found⟩, names, _⟩ := candidate_is_file formed member
  have some := candidate_ne_nil formed isDir member
  rw [Files.join_pathOf some names]
  exact Files.locate_pathOf formed (by simp [some]) (Files.kindAt?_eq_file.mpr found) nofun

theorem findDependents_of_no_stem (expired : Deadline) (schedule : Schedule)
    (nameless : textStem? (Files.pathOf target) = none) :
    e.findDependents fs expired target root schedule = (⟨[], 0, true⟩, []) := by
  rw [findDependents, searchBy, nameless]

theorem findDependents_eq (fs : Files) (expired : Deadline) (root : List OsString)
    (schedule : Schedule) {stem : String} (stemmed : textStem? (Files.pathOf target) = some stem) :
    (e.findDependents fs expired target root schedule).1 =
      { files := (Path.ascending ((fs.walk (e.searchFilter target) root).filter
          ((e.query fs root stem).reports expired))).map ofComponents
        scanned := ((fs.walk (e.searchFilter target) root).filter (Query.inTime expired)).length
        complete := (fs.walk (e.searchFilter target) root).all (Query.inTime expired) } := by
  rw [findDependents, searchBy, stemmed]
  exact Query.outcome_run _ expired schedule _

/-- Where no candidate comes too late, the dependents are all reported. -/
theorem findDependents_unlimited {expired : Deadline} (never : ∀ path, expired path = false)
    (fs : Files) (root : List OsString) (schedule : Schedule) {stem : String}
    (stemmed : textStem? (Files.pathOf target) = some stem) :
    (e.findDependents fs expired target root schedule).1 =
      { files := (Path.ascending ((fs.walk (e.searchFilter target) root).filter
          (e.query fs root stem).isDependent)).map ofComponents
        scanned := (fs.walk (e.searchFilter target) root).length
        complete := true } := by
  have early : Query.inTime expired = fun _ => true :=
    funext fun below => congrArg not (never (ofComponents below))
  have reported : (e.query fs root stem).reports expired = (e.query fs root stem).isDependent := by
    funext below
    rw [Query.reports, early, Bool.true_and]
  rw [findDependents_eq fs expired root schedule stemmed, reported, early, List.filter_true,
    List.all_eq_true.mpr fun _ _ => rfl]

theorem deadline_of_unlimited (unlimited : e.settings.deadlineMs = none) (path : OsString) :
    e.settings.deadline path = false := by
  simp [Settings.deadline, unlimited]

/-- The reported files are those that the walk lists and that import the module. -/
theorem mem_findDependents_iff (unlimited : e.settings.deadlineMs = none) {path : OsString} :
    path ∈ (e.findDependents fs e.settings.deadline target root).1.files ↔
      ∃ below ∈ fs.walk (e.searchFilter target) root,
        path = ofComponents below ∧ e.Imports fs target (root ++ below) := by
  cases stemmed : textStem? (Files.pathOf target) with
  | none =>
    rw [findDependents_of_no_stem _ _ stemmed]
    simp [Imports, stemmed]
  | some stem =>
    rw [findDependents_unlimited (deadline_of_unlimited unlimited) fs root .sequential stemmed]
    simp only [List.mem_map, Path.mem_ascending, List.mem_filter, isDependent_iff stemmed]
    constructor
    · rintro ⟨below, ⟨member, imports⟩, rfl⟩
      exact ⟨below, member, rfl, imports⟩
    · rintro ⟨below, member, rfl, imports⟩
      exact ⟨below, ⟨member, imports⟩, rfl⟩

/-- A search without a deadline comes to its end, and its report is exact. -/
theorem findDependents_reports (unlimited : e.settings.deadlineMs = none)
    (formed : fs.top.WellFormed) (isDir : fs.kindAt? root = some .dir) :
    ∃ files scanned, (e.findDependents fs e.settings.deadline target root).1 =
      ⟨files, scanned, true⟩ ∧ e.Reports fs root target files scanned := by
  have member : ∀ path, path ∈ (e.findDependents fs e.settings.deadline target root).1.files ↔
      ∃ below ∈ fs.walk (e.searchFilter target) root,
        path = ofComponents below ∧ e.Imports fs target (root ++ below) :=
    fun path => mem_findDependents_iff unlimited
  rw [walk_searchFilter formed] at member
  cases stemmed : textStem? (Files.pathOf target) with
  | none =>
    rw [findDependents_of_no_stem _ _ stemmed] at member ⊢
    exact ⟨[], 0, rfl, member, .nil, by simp, by rw [stemmed]; rfl⟩
  | some stem =>
    rw [findDependents_unlimited (deadline_of_unlimited unlimited) fs root .sequential stemmed,
      walk_searchFilter formed] at member ⊢
    refine ⟨_, _, rfl, member, ?_, ?_, by rw [stemmed]; rfl⟩
    · -- The components of a path that is made of names are these names.
      rw [List.map_map, List.map_congr_left (g := id), List.map_id]
      · exact Path.ascending_ascends _
      · intro below listed
        have candidate := (List.mem_filter.mp (Path.mem_ascending.mp listed)).1
        have names := (candidate_is_file formed candidate).2.1
        exact components_ofComponents fun name listed => names name (by simp [listed])
    · intro path listed
      obtain ⟨below, candidate, rfl, _⟩ := (member path).mp listed
      exact ⟨_, locate_candidate formed isDir candidate, (candidate_is_file formed candidate).2.2⟩

end Search

/-- A path leads to a file with a text, and another one to a directory. -/
structure Resolves (fs : Files) (file root : OsString) (source : String)
    (target base : List OsString) : Prop where
  located : fs.locate file = .ok target
  readable : (fs.readAt target >>= Files.decode) = .ok source
  rooted : fs.locate root = .ok base
  isDir : fs.kindAt? base = some .dir

section Resolved

variable {fs : Files} {file root : OsString} {source : String} {target base : List OsString}

theorem readTarget_eq_ok_iff : readTarget fs file = .ok source ↔
    ∃ target, fs.locate file = .ok target ∧ (fs.readAt target >>= Files.decode) = .ok source := by
  rw [readTarget, Files.readText, Files.read]
  cases fs.locate file with
  | error => simp [bind, Except.bind]
  | ok target =>
    cases read : fs.readAt target with
    | error => simp [bind, Except.bind, read]
    | ok bytes => cases decoded : Files.decode bytes <;> simp [bind, Except.bind, read, decoded]

theorem locatePair_eq_ok_iff : locatePair fs file root = .ok (target, base) ↔
    fs.locate file = .ok target ∧ fs.locate root = .ok base ∧ fs.kindAt? base = some .dir := by
  rw [locatePair]
  cases rooted : fs.locate root with
  | error => simp
  | ok location =>
    by_cases isDir : fs.kindAt? location = some .dir
    · rw [if_pos ((Files.isDir_iff rooted).mpr isDir)]
      cases fs.locate file with
      | error => simp
      | ok target' =>
        simp only [Except.ok.injEq, Prod.mk.injEq]
        constructor
        · rintro ⟨rfl, rfl⟩
          exact ⟨rfl, rfl, isDir⟩
        · rintro ⟨rfl, rfl, _⟩
          exact ⟨rfl, rfl⟩
    · rw [if_neg fun found => isDir ((Files.isDir_iff rooted).mp found)]
      simp only [reduceCtorEq, Except.ok.injEq, false_iff]
      rintro ⟨_, rfl, found⟩
      exact isDir found

theorem result_recorded {α : Type} (outcome : Except AnalysisError (α × List Event)) :
    (recorded file outcome).result = outcome.map (·.1) := by
  cases outcome <;> rfl

/-- An analysis succeeds exactly if its paths resolve, and then its report is that on what they
lead to. -/
theorem analyzeImpact_eq_ok_iff {e : Engine} {change : Option String} {report : ImpactReport} :
    (e.analyzeImpact fs file root change).result = .ok report ↔ ∃ source target base,
      Resolves fs file root source target base ∧
      report = (e.reportOn fs file source target base change).1 := by
  rw [analyzeImpact, result_recorded, impactReport]
  cases read : readTarget fs file with
  | error =>
    simp only [bind, Except.bind, Except.map, reduceCtorEq, false_iff]
    rintro ⟨source, target, base, resolves, _⟩
    have ok := readTarget_eq_ok_iff.mpr ⟨target, resolves.located, resolves.readable⟩
    rw [read] at ok
    cases ok
  | ok source =>
    obtain ⟨target, located, readable⟩ := readTarget_eq_ok_iff.mp read
    cases pair : locatePair fs file root with
    | error =>
      simp only [bind, Except.bind, Except.map, reduceCtorEq, false_iff]
      rintro ⟨source, target, base, resolves, _⟩
      have ok := locatePair_eq_ok_iff.mpr ⟨resolves.located, resolves.rooted, resolves.isDir⟩
      rw [pair] at ok
      cases ok
    | ok found =>
      obtain ⟨located', rooted, isDir⟩ := locatePair_eq_ok_iff.mp pair
      simp only [bind, Except.bind, Except.map, pure, Except.pure, Except.ok.injEq]
      constructor
      · rintro rfl
        rw [located'] at located
        cases located
        exact ⟨source, found.1, found.2, ⟨located', readable, rooted, isDir⟩, rfl⟩
      · rintro ⟨source', target', base', resolves, rfl⟩
        -- What resolves is what was read and located.
        have again := readTarget_eq_ok_iff.mpr ⟨target', resolves.located, resolves.readable⟩
        have same := locatePair_eq_ok_iff.mpr ⟨resolves.located, resolves.rooted, resolves.isDir⟩
        rw [read] at again
        rw [pair] at same
        cases again
        cases same
        rfl

/-- The reverse search is exact: however a readable file and a directory are given, both analyses
succeed and report exactly the files that import the file. -/
theorem dependents_exact {e : Engine} {change : Option String} (formed : fs.top.WellFormed)
    (unlimited : e.settings.deadlineMs = none)
    (resolves : Resolves fs file root source target base) :
    (∃ report, (e.analyzeImpact fs file root change).result = .ok report ∧
      e.Reports fs base target report.dependents report.scanned) ∧
    ∃ map scan, (e.mapDependencies fs file (some root) true).result = .ok map ∧
      map.importedBy = some scan ∧ e.Reports fs base target scan.files scan.scanned := by
  obtain ⟨files, scanned, search, reports⟩ :=
    @findDependents_reports e fs base target unlimited formed resolves.isDir
  refine ⟨⟨_, analyzeImpact_eq_ok_iff.mpr ⟨source, target, base, resolves, rfl⟩, ?_⟩, ?_⟩
  · simpa only [reportOn, search] using reports
  · have read := readTarget_eq_ok_iff.mpr ⟨target, resolves.located, resolves.readable⟩
    have pair := locatePair_eq_ok_iff.mpr ⟨resolves.located, resolves.rooted, resolves.isDir⟩
    have searched : e.searchDependents fs file root =
        .ok (e.findDependents fs e.settings.deadline target base) := by
      simp only [searchDependents, pair, bind, Except.bind, pure, Except.pure]
    rw [mapDependencies, result_recorded, dependencyMap, read]
    simp only [searched, bind, Except.bind, pure, Except.pure, Except.map]
    refine ⟨_, _, rfl, rfl, ?_⟩
    rw [search]
    exact reports

end Resolved

/-- A project in which the target is also reached through a link, beside a file that is no text. -/
def linkedProject : Files :=
  ⟨.dir [("p", .dir [
    ("app.py", .file "from lib import util\n".toUTF8),
    ("bad.py", .file ⟨#[0xff]⟩),
    ("lib", .dir [("util.py", .file "def f():\n    pass\n".toUTF8)]),
    ("util.py", .link "lib/util.py")])], []⟩

theorem linkedProject_wellFormed : linkedProject.top.WellFormed := by
  refine .dir (by decide) (by decide) fun entry member => ?_
  simp only [List.mem_singleton] at member
  subst member
  refine .dir (by decide) (by decide) fun entry member => ?_
  simp only [List.mem_cons, List.not_mem_nil, or_false] at member
  rcases member with rfl | rfl | rfl | rfl
  · exact .file
  · exact .file
  · refine .dir (by decide) (by decide) fun entry member => ?_
    simp only [List.mem_singleton] at member
    subst member
    exact .file
  · exact .link

theorem linkedProject_resolves : Resolves linkedProject "p/../p/util.py" "/p/lib/.."
    "def f():\n    pass\n" ["p", "lib", "util.py"] ["p"] where
  located := by decide
  readable := by decide
  rooted := by decide
  isDir := rfl

/-- A name that is no text. -/
def latinName : OsString := ⟨[0x63, 0x61, 0x66, 0xe9, 0x2e, 0x70, 0x79]⟩

/-- A project with a file whose name is no text, beside another file. -/
def latinProject : Files :=
  ⟨.dir [("app.py", .file "import caf\n".toUTF8), (latinName, .file "x = 1\n".toUTF8)], []⟩

theorem latinProject_wellFormed : latinProject.top.WellFormed :=
  Node.wellFormed_flat (by decide) (by decide) (by decide)

theorem latinProject_resolves : Resolves latinProject latinName "." "x = 1\n" [latinName] [] where
  located := by decide
  readable := by decide
  rooted := by decide
  isDir := rfl

/-- The target of a search that is given through a link is not reported, and one whose name is no
text is analysed like any other, though no file is examined. -/
theorem dependents_exact_linked :
    (∃ report, (analyzeImpact ⟨{}, .builtin⟩ linkedProject "p/../p/util.py" "/p/lib/.."
        (some "rename f")).result = .ok report ∧
      Reports ⟨{}, .builtin⟩ linkedProject ["p"] ["p", "lib", "util.py"] report.dependents
        report.scanned) ∧
    ∃ report, (analyzeImpact ⟨{}, .builtin⟩ latinProject latinName "." none).result = .ok report ∧
      report.dependents = [] ∧ report.scanned = 0 := by
  refine ⟨(dependents_exact linkedProject_wellFormed rfl linkedProject_resolves).1, ?_⟩
  obtain ⟨report, ok, reports⟩ := (@dependents_exact _ _ _ _ _ _ ⟨{}, .builtin⟩ none
    latinProject_wellFormed rfl latinProject_resolves).1
  have nameless : textStem? (Files.pathOf [latinName]) = none := by decide
  refine ⟨report, ok, List.eq_nil_iff_forall_not_mem.mpr fun path member => ?_, ?_⟩
  · obtain ⟨_, _, _, stem, _, _, _, stemmed, _⟩ := (reports.mem_iff path).mp member
    rw [nameless] at stemmed
    cases stemmed
  · rw [reports.scanned_eq, nameless]
    rfl

end Ripple.Engine
