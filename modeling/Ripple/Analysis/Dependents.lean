import Ripple.Files.Walk
import Ripple.Settings

/-!
The files that import a target. A file of the project is a dependent if it contains the stem of the
target's name and one of the dependency patterns of its language, filled with that stem, matches it.

The candidates are examined by workers, one for each, who share what they count and report and the
patterns that have been filled so far. Each action on what they share is a step of its own, and a
schedule says who takes the next one.
-/

namespace Ripple

/-- What happens in the course of an analysis. -/
inductive Event where
  | started (file : OsString)
  /-- The number of files that the search is going to examine. -/
  | filesFound (count : Nat)
  | dependentFound (file : OsString)
  | deadlineExceeded
  | complete
  deriving DecidableEq, Repr

/-- The outcome of a search for dependents. -/
structure DependentScan where
  /-- Paths below the root, in the order of their components. -/
  files : List OsString
  /-- How many files were examined. -/
  scanned : Nat
  /-- Whether the search came to its end before the deadline. -/
  complete : Bool
  deriving DecidableEq, Repr

/-- Answers, for each candidate, whether the deadline has passed when its turn comes. -/
abbrev Deadline := OsString → Bool

/-- Without a deadline, or with one that is ahead, no candidate comes too late; with one of zero,
every candidate does. -/
def Settings.deadline (s : Settings) : Deadline := fun _ => s.deadlineMs = some 0

/-- How the work on the candidates of a search is shared out. -/
structure Schedule where
  /-- The order in which the candidates are given to workers. -/
  order : List (List OsString) → List (List OsString)
  permutes : ∀ candidates, (order candidates).Perm candidates
  /-- Whose turn it is, step by step, by the places in that order. Those who have not come to an end
  when the turns are over go on one after another. -/
  turns : List Nat

/-- One candidate after another, in the order of their paths as strings. -/
def Schedule.sequential : Schedule where
  order candidates := candidates.mergeSort fun a b =>
    decide (Path.ofComponents a ≤ Path.ofComponents b)
  permutes candidates := List.mergeSort_perm candidates _
  turns := []

/-- How far a worker has come with a candidate. -/
inductive Stage where
  | waiting
  | inTime
  | counted
  /-- Only the patterns of the language at an index can tell whether the source imports the
  module. -/
  | promising (index : Nat) (source : String)
  | confirmed
  | done (dependent : Bool)
  deriving DecidableEq, Repr

/-- A worker, with the components of a candidate below the root. -/
structure Worker where
  candidate : List OsString
  stage : Stage

/-- What the workers of a search share. -/
structure Shared where
  /-- The patterns of each language, once a worker has needed them. -/
  patterns : List (Option (List Pattern))
  scanned : Nat
  timedOut : Bool
  /-- The dependents that were reported, the latest first. -/
  reported : List OsString

/-- A search under way. -/
structure Search where
  shared : Shared
  workers : Array Worker

namespace Search

/-- The candidates that turned out to be dependents. -/
def found (s : Search) : List (List OsString) :=
  (s.workers.toList.filter fun w => w.stage = .done true).map (·.candidate)

/-- What comes of a search. -/
def outcome (s : Search) : DependentScan :=
  { files := (Path.ascending s.found).map Path.ofComponents
    scanned := s.shared.scanned
    complete := !s.shared.timedOut }

/-- What the workers report, and that the deadline has passed if one of them came too late. -/
def events (s : Search) : List Event :=
  s.shared.reported.reverse.map .dependentFound ++
    if s.shared.timedOut then [.deadlineExceeded] else []

end Search

/-- What the workers of a search look for, and where. -/
structure Query where
  engine : Engine
  files : Files
  root : List OsString
  stem : String
  /-- A test that a source has to pass before any pattern is tried. -/
  precheck : String → Bool

namespace Query

/-- The patterns of a language for an import of the module. A language whose patterns cannot be
filled with its name has none. -/
def fill (q : Query) (l : Language) : List Pattern :=
  match l.dependencyPatterns q.stem with
  | .ok patterns => patterns
  | .error _ => []

/-- The patterns of the language at an index. The worker who needs them first fills them. -/
def patternsAt (q : Query) (s : Shared) (index : Nat) : List Pattern × Shared :=
  match s.patterns[index]?, q.engine.table.languages[index]? with
  | some (some patterns), _ => (patterns, s)
  | some none, some l =>
    let patterns := q.fill l
    (patterns, { s with patterns := s.patterns.set index (some patterns) })
  | _, _ => ([], s)

/-- What a candidate shows without the patterns. -/
def look (q : Query) (candidate : List OsString) : Stage :=
  match q.engine.table.indexOfPath? (Files.pathOf (q.root ++ candidate)) with
  | none => .done false
  | some index =>
    match q.files.readAt (q.root ++ candidate) >>= Files.decode with
    | .ok source => if q.precheck source then .promising index source else .done false
    | .error _ => .done false

/-- The next action of a worker. -/
def act (q : Query) (expired : Deadline) (s : Shared) (w : Worker) : Stage × Shared :=
  match w.stage with
  | .waiting =>
    if expired (Path.ofComponents w.candidate) then (.done false, { s with timedOut := true })
    else (.inTime, s)
  | .inTime => (.counted, { s with scanned := s.scanned + 1 })
  | .counted => (q.look w.candidate, s)
  | .promising index source =>
    let (patterns, s) := q.patternsAt s index
    (if patterns.any (·.matchesIn source.toList) then .confirmed else .done false, s)
  | .confirmed => (.done true, { s with reported := Path.ofComponents w.candidate :: s.reported })
  | .done dependent => (.done dependent, s)

/-- The most actions that a worker takes. -/
def actionBound : Nat := 5

/-- The worker at a place takes the next step. -/
def step (q : Query) (expired : Deadline) (s : Search) (place : Nat) : Search :=
  match s.workers[place]? with
  | none => s
  | some w =>
    let (stage, shared) := q.act expired s.shared w
    ⟨shared, s.workers.setIfInBounds place { w with stage := stage }⟩

/-- A search before its first step. -/
def start (q : Query) (order : List (List OsString)) : Search :=
  { shared := ⟨q.engine.table.languages.map fun _ => none, 0, false, []⟩
    workers := (order.map fun candidate => ⟨candidate, .waiting⟩).toArray }

/-- The whole search. -/
def run (q : Query) (expired : Deadline) (schedule : Schedule) (candidates : List (List OsString)) :
    Search :=
  let order := schedule.order candidates
  let remaining := (List.range order.length).flatMap (List.replicate actionBound)
  (schedule.turns ++ remaining).foldl (q.step expired) (q.start order)

end Query

namespace Engine

/-- Whether a source contains the stem of a name. -/
def mentions (stem source : String) : Bool := Text.contains stem.toList source.toList

/-- What a search for dependents of the target leaves out. -/
def searchFilter (e : Engine) (target : List OsString) : WalkFilter :=
  { skipDirs := e.settings.skipDirs
    extensions := e.settings.searchExtensions
    maxFileSize := e.settings.maxFileSize
    honourIgnoreFiles := e.settings.honourIgnoreFiles
    exclude := some target }

/-- The files below the root that import the target, both given by their locations, and what happens
on the way. A source has to pass the test with the stem of the target's name first. If the target has
no stem that is a text, no file can name it, and nothing is searched. -/
def searchBy (precheck : String → String → Bool) (e : Engine) (fs : Files) (expired : Deadline)
    (target root : List OsString) (schedule : Schedule) : DependentScan × List Event :=
  match Path.textStem? (Files.pathOf target) with
  | none => (⟨[], 0, true⟩, [])
  | some stem =>
    let candidates := fs.walk (e.searchFilter target) root
    let search := Query.run ⟨e, fs, root, stem, precheck stem⟩ expired schedule candidates
    (search.outcome, .filesFound candidates.length :: search.events)

/-- The files below the root that import the target, of those that mention it. -/
def findDependents (e : Engine) (fs : Files) (expired : Deadline) (target root : List OsString)
    (schedule : Schedule := .sequential) : DependentScan × List Event :=
  searchBy mentions e fs expired target root schedule

end Engine

end Ripple
