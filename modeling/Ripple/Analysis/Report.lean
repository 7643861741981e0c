import Ripple.Analysis.Extraction
import Ripple.Analysis.Risk
import Ripple.Analysis.Usages

/-!
The two analyses of a file: what it imports and is imported by, and how far a change to it reaches.
Each one tells what happened on the way, also when it fails. How the search of an analysis falls out
depends on which candidates come too late and on the schedule of its workers; unless it is said
otherwise, the deadline is that of the settings, and one candidate is examined after another.
-/

namespace Ripple

/-- The reason for which an analysis fails. -/
inductive AnalysisError where
  | notFound (file : OsString)
  | unreadable (file : OsString) (cause : AccessError)
  | rootNotFound (root : OsString)
  deriving DecidableEq, Repr

namespace AnalysisError

def message : AnalysisError → String
  | notFound file => "File not found: " ++ file.display
  | unreadable file cause => "Could not read " ++ file.display ++ ": " ++ cause.message
  | rootNotFound root => "Project root not found: " ++ root.display

/-- The failure of an access to a file. -/
def ofAccess (file : OsString) : AccessError → AnalysisError
  | .notFound => notFound file
  | cause => unreadable file cause

end AnalysisError

/-- What a file imports, and what imports it. -/
structure DependencyMap where
  target : OsString
  language : Option String
  imports : List Import
  /-- The files that import the target, if they were searched for. -/
  importedBy : Option DependentScan
  notes : List String
  suggestions : List String
  deriving DecidableEq, Repr

namespace DependencyMap

/-- The names of the imports of one origin. -/
def named (m : DependencyMap) (origin : Origin) : List String :=
  (m.imports.filter fun i => i.origin = origin).map (·.name)

/-- What a reader of the map should consider. -/
def advice (m : DependencyMap) : List String :=
  let external := (m.named .external).length
  let importers := (m.importedBy.map (·.files.length)).getD 0
  (if 10 < external then
    ["This file has " ++ toString external ++
      " external dependencies - consider if all are needed"] else []) ++
  (if (m.named .internal).isEmpty then []
    else ["Check for circular dependencies in internal imports"]) ++
  (if 5 < importers then
    ["This file is imported by " ++ toString importers ++
      " other files - changes may have wide impact"] else [])

end DependencyMap

/-- How far a change to a file reaches. -/
structure ImpactReport where
  target : OsString
  language : Option String
  exports : List Export
  dependents : List OsString
  usages : UsageMap
  risk : Risk
  scanned : Nat
  complete : Bool
  notes : List String
  suggestions : List String
  warnings : List String
  deriving DecidableEq, Repr

/-- The counts of a report. -/
structure ImpactSummary where
  dependents : Nat
  exports : Nat
  publicExports : Nat
  usages : Nat
  deriving DecidableEq, Repr

namespace ImpactReport

def summary (r : ImpactReport) : ImpactSummary :=
  { dependents := r.dependents.length
    exports := r.exports.length
    publicExports := (r.exports.filter (·.isPublic)).length
    usages := r.usages.total }

/-- The symbols with the most uses first; those with equally many keep the order of their names. -/
def mostUsed (usages : UsageMap) : List (String × Nat) :=
  (usages.entries.map fun u => (u.1, u.2.length)).mergeSort fun a b => decide (b.2 ≤ a.2)

/-- Advice on symbols that are used more than twice, three of them at most. -/
def usageAdvice (usages : UsageMap) : List String :=
  (((mostUsed usages).take 3).filter fun u => 2 < u.2).map fun u =>
    "'" ++ u.1 ++ "' is used " ++ toString u.2 ++ " times - changes will have wide effect"

/-- What a reader of the report should consider. -/
def advice (r : ImpactReport) : List String :=
  (if r.dependents.isEmpty then []
    else ["Review these files before changing: " ++
      Text.join ", " ((r.dependents.take 3).map (·.display))]) ++
  (if r.risk.level.isElevated then
    ["Consider adding tests for dependent code before making changes",
      "Make changes incrementally and test after each step"] else []) ++
  usageAdvice r.usages

def warning (level : RiskLevel) : List String :=
  if level.isElevated then
    ["Risk level is " ++ level.title ++ " - consider the impact carefully"]
  else []

end ImpactReport

/-- A note on a search that met its deadline. -/
def DependentScan.notes (s : DependentScan) : List String :=
  if s.complete then []
  else ["Deadline exceeded after examining " ++ toString s.scanned ++
    " files; dependents may be incomplete"]

/-- The outcome of an analysis, and what happened on the way. -/
structure Run (α : Type) where
  events : List Event
  result : Except AnalysisError α

namespace Engine

/-- The text of the target. -/
def readTarget (fs : Files) (file : OsString) : Except AnalysisError String :=
  match fs.readText file with
  | .ok source => .ok source
  | .error cause => .error (.ofAccess file cause)

/-- The locations of the target and of the root, which has to be a directory. -/
def locatePair (fs : Files) (file root : OsString) :
    Except AnalysisError (List OsString × List OsString) :=
  if fs.isDir root then
    match fs.locate root with
    | .error _ => .error (.rootNotFound root)
    | .ok rootLocation =>
      match fs.locate file with
      | .error cause => .error (.ofAccess file cause)
      | .ok target => .ok (target, rootLocation)
  else .error (.rootNotFound root)

/-- The search for the files that import the target. -/
def searchDependents (e : Engine) (fs : Files) (file root : OsString)
    (expired : Deadline := e.settings.deadline) (schedule : Schedule := .sequential) :
    Except AnalysisError (DependentScan × List Event) := do
  let (target, rootLocation) ← locatePair fs file root
  return e.findDependents fs expired target rootLocation schedule

/-- The imports of a file, and the files below the root that import it if they are asked for and a
root is given. -/
def dependencyMap (e : Engine) (fs : Files) (file : OsString) (root : Option OsString)
    (reverse : Bool) (expired : Deadline := e.settings.deadline)
    (schedule : Schedule := .sequential) : Except AnalysisError (DependencyMap × List Event) := do
  let source ← readTarget fs file
  let language := e.table.ofPath? file
  let found := Extraction.imports source language
  let (importedBy, notes, events) ← match reverse, root with
    | true, some root => do
      let (scan, events) ← e.searchDependents fs file root expired schedule
      pure (some scan, scan.notes, events)
    | true, none => pure (none, ["Reverse dependencies need a project root; skipped"], [])
    | false, _ => pure (none, [], [])
  let map : DependencyMap :=
    { target := file
      language := language.map (·.name)
      imports := found.items
      importedBy := importedBy
      notes := found.note.toList ++ notes
      suggestions := [] }
  return ({ map with suggestions := map.advice }, events)

/-- The report on a file whose text and location are known, and the location of the root: its
symbols, the files below the root that import it, how they use its public symbols, and the risk of
the change. -/
def reportOn (e : Engine) (fs : Files) (file : OsString) (source : String)
    (target root : List OsString) (change : Option String) (expired : Deadline := e.settings.deadline)
    (schedule : Schedule := .sequential) : ImpactReport × List Event :=
  let language := e.table.ofPath? file
  let found := Extraction.exports source language
  let (scan, events) := e.findDependents fs expired target root schedule
  let usages := e.trackUsages fs root found.items scan.files
  let publicExports := (found.items.filter (·.isPublic)).length
  let risk := Risk.assess scan.files.length publicExports usages.total change
  let report : ImpactReport :=
    { target := file
      language := language.map (·.name)
      exports := found.items
      dependents := scan.files
      usages := usages
      risk := risk
      scanned := scan.scanned
      complete := scan.complete
      notes := found.note.toList ++ scan.notes
      suggestions := []
      warnings := ImpactReport.warning risk.level }
  ({ report with suggestions := report.advice }, events)

/-- The report on a file below a root. -/
def impactReport (e : Engine) (fs : Files) (file root : OsString) (change : Option String)
    (expired : Deadline := e.settings.deadline) (schedule : Schedule := .sequential) :
    Except AnalysisError (ImpactReport × List Event) := do
  let source ← readTarget fs file
  let (target, rootLocation) ← locatePair fs file root
  return e.reportOn fs file source target rootLocation change expired schedule

/-- Puts the beginning and, if all went well, the end of an analysis around what happened. -/
def recorded {α : Type} (file : OsString) (outcome : Except AnalysisError (α × List Event)) :
    Run α :=
  match outcome with
  | .ok (value, events) => ⟨.started file :: events ++ [.complete], .ok value⟩
  | .error e => ⟨[.started file], .error e⟩

/-- Maps the dependencies of a file. -/
def mapDependencies (e : Engine) (fs : Files) (file : OsString) (root : Option OsString)
    (reverse : Bool) (expired : Deadline := e.settings.deadline)
    (schedule : Schedule := .sequential) : Run DependencyMap :=
  recorded file (e.dependencyMap fs file root reverse expired schedule)

/-- Analyses the impact of a change to a file. -/
def analyzeImpact (e : Engine) (fs : Files) (file root : OsString) (change : Option String)
    (expired : Deadline := e.settings.deadline) (schedule : Schedule := .sequential) :
    Run ImpactReport :=
  recorded file (e.impactReport fs file root change expired schedule)

end Engine

end Ripple
