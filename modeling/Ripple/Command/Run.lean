import Ripple.Command.Arguments
import Ripple.Command.Relay
import Ripple.Output.Render
import Ripple.Settings.Load

/-!
The command line as a whole: from its words and the files to what it prints and its exit code.
-/

namespace Ripple

/-- What an analysis that was asked for returns. -/
inductive Report where
  | dependencies (map : DependencyMap)
  | impact (report : ImpactReport)
  deriving DecidableEq, Repr

def Report.render (format : OutputFormat) : Report → Written
  | dependencies map => map.render format
  | impact report => report.render format

/-- The run of an analysis with its result put into a wider type. -/
def Run.map {α β : Type} (f : α → β) (run : Run α) : Run β := ⟨run.events, run.result.map f⟩

/-- Makes the analysis that is asked for. -/
def Engine.perform (e : Engine) (fs : Files) (request : Request)
    (expired : Deadline := e.settings.deadline) (schedule : Schedule := .sequential) : Run Report :=
  match request with
  | .dependencies file root reverse =>
    (e.mapDependencies fs file root reverse expired schedule).map .dependencies
  | .impact file root change =>
    (e.analyzeImpact fs file root change expired schedule).map .impact

namespace Command

/-- What a command leaves behind. -/
structure Outcome where
  exit : Nat
  stdout : String
  stderr : String
  deriving DecidableEq, Repr

/-- The line that reports an event. -/
def progressLine : Event → String
  | .started file => "Analyzing " ++ file.display ++ "..."
  | .filesFound n => "Found " ++ toString n ++ " candidate files."
  | .dependentFound file => "Dependent: " ++ file.display
  | .deadlineExceeded => "Deadline exceeded, results are partial."
  | .complete => "Analysis complete."

/-- Indents the lines of a text: the first one by `first`, the others by `others`. -/
def indent (first others text : String) : String :=
  first ++ Text.join ("\n" ++ others)
    ((Text.splitOn '\n' text.toList).map String.ofList)

/-- The causes of a failure, which are numbered if there is more than one. -/
def causeLines (causes : List String) : List String :=
  match causes with
  | [cause] => [indent "    " "    " cause]
  | causes => causes.zipIdx.map fun (cause, n) =>
    indent ("    " ++ toString n ++ ": ") "       " cause

/-- The report of a failure. -/
def failureText (message : String) (causes : List String) : String :=
  Text.unlines (["Error: " ++ message] ++
    if causes.isEmpty then [] else ["", "Caused by:"] ++ causeLines causes)

/-- The outcome of a failure, after the given progress. -/
def failed (progress message : String) (causes : List String) : Outcome :=
  ⟨1, "", progress ++ failureText message causes⟩

/-- The complaint about a path in a structured report. -/
def pathComplaint : String := "path contains invalid UTF-8 characters"

/-- The causes of a failed analysis, the outermost first. -/
def analysisCauses (e : AnalysisError) : List String :=
  match e with
  | .unreadable _ cause => [e.message, cause.message]
  | e => [e.message]

/-- The causes of refused settings, the outermost first. -/
def settingsCauses (e : SettingsError) : List String :=
  match e with
  | .language (.badPattern _ cause) => [e.message, cause.message]
  | e => [e.message]

/-- What the failure of an analysis is headed with. -/
def complaint : Request → String
  | .dependencies file _ _ => "Dependency mapping failed for " ++ file.display
  | .impact file _ _ => "Impact analysis failed for " ++ file.display

/-- What the words of a command line and the files do not determine. -/
structure Circumstances where
  /-- Which candidates of a search come too late for a deadline. -/
  expired : Option Nat → Deadline := fun ms _ => ms = some 0
  /-- How the workers of a search take turns. -/
  schedule : Schedule := .sequential
  /-- How the analysis and the command take turns. -/
  turns : List Side := []

/-- Prints the report of an analysis, after the events that have been taken. A report that cannot be
written to its end is a failure as well, but the beginning of it has been printed. -/
def finish (settings : Settings) (i : Invocation) (turns : List Side) (run : Run Report) :
    Outcome :=
  let taken := (Relay.run turns run.events).taken
  let progress := if i.verbose then Text.unlines (taken.map progressLine) else ""
  match run.result with
  | .ok report =>
    let written := report.render settings.outputFormat
    if written.whole then ⟨0, written.text, progress⟩
    else ⟨1, written.text, progress ++ failureText pathComplaint []⟩
  | .error e => failed progress (complaint i.request) (analysisCauses e)

/-- The settings that an invocation starts from: those of the file it names, or those that are
found. -/
def loaded (fs : Files) (userDir : Option OsString) (i : Invocation) : Except LoadError Settings :=
  match i.config with
  | some path => Settings.load fs path
  | none => Settings.discover fs userDir

/-- The settings for an invocation, changed by its switches. -/
def settingsFor (fs : Files) (userDir : Option OsString) (i : Invocation) :
    Except LoadError Settings := do
  let s ← loaded fs userDir i
  return { s with
    outputFormat := i.format.getD s.outputFormat
    deadlineMs := i.deadlineMs.or s.deadlineMs }

/-- Carries out an invocation. -/
def invoke (fs : Files) (userDir : Option OsString) (i : Invocation) (c : Circumstances := {}) :
    Outcome :=
  match settingsFor fs userDir i with
  | .error e => failed "" e.message [e.cause]
  | .ok settings =>
    match Engine.ofSettings settings with
    | .error e => failed "" "Failed to initialize analysis engine" (settingsCauses e)
    | .ok engine =>
      finish settings i c.turns
        (engine.perform fs i.request (c.expired settings.deadlineMs) c.schedule)

def versionText : String := "fathom-cli 0.3.0\n"

def usageText : String := Text.unlines
  ["Dependency mapping and change impact analysis",
    "",
    "Usage: fathom [OPTIONS] <COMMAND>",
    "",
    "Commands:",
    "  deps    List a file's imports, and optionally the files that import it",
    "  impact  Estimate the blast radius of changing a file",
    "  help    Print this message or the help of the given subcommand(s)",
    "",
    "Options:",
    "  -f, --format <FORMAT>            Output format",
    "  -c, --config <CONFIG>            Config file",
    "      --deadline-ms <DEADLINE_MS>  Stop scanning after this many milliseconds",
    "  -v, --verbose                    Verbose output",
    "  -h, --help                       Print help",
    "  -V, --version                    Print version"]

/-- Runs the command with the given words. -/
def run (fs : Files) (userDir : Option OsString) (args : List OsString) (c : Circumstances := {}) :
    Outcome :=
  match parse args with
  | .ok i => invoke fs userDir i c
  | .error .help => ⟨0, usageText, ""⟩
  | .error .version => ⟨0, versionText, ""⟩
  | .error .misuse => ⟨2, "", usageText⟩

end Command

end Ripple
