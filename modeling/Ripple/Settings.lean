import Ripple.Language.Table

/-!
Settings of the analyses.
-/

namespace Ripple

/-- The form of a report. -/
inductive OutputFormat where
  | plain | json | markdown
  deriving DecidableEq, Repr

def OutputFormat.label : OutputFormat → String
  | plain => "plain"
  | json => "json"
  | markdown => "markdown"

structure Settings where
  /-- Names of directories that are not searched. -/
  skipDirs : List String :=
    ["node_modules", ".git", "__pycache__", ".venv", "venv", "dist", "build", ".next"]
  /-- Extensions of the files that are searched for imports of the target. -/
  searchExtensions : List String := ["py", "js", "ts", "jsx", "tsx", "go", "rs", "java"]
  /-- How many uses of one symbol in one file are recorded. -/
  usageLimit : Nat := 5
  /-- How many characters of a line are shown. -/
  snippetWidth : Nat := 100
  /-- The time for a search, in milliseconds. -/
  deadlineMs : Option Nat := none
  /-- The size up to which files are searched, in bytes. -/
  maxFileSize : Option Nat := some 1048576
  honourIgnoreFiles : Bool := false
  /-- Languages besides the built-in ones. -/
  languages : List LanguageDefinition := []
  outputFormat : OutputFormat := .plain
  deriving DecidableEq, Repr

/-- The reason for which settings are refused. -/
inductive SettingsError where
  | noSearchExtensions
  | usageLimitZero
  | snippetWidthZero
  | language (cause : DefinitionError)
  deriving DecidableEq, Repr

def SettingsError.message : SettingsError → String
  | noSearchExtensions => "Configuration error: search_extensions must not be empty"
  | usageLimitZero => "Configuration error: usage_limit must be at least 1"
  | snippetWidthZero => "Configuration error: snippet_width must be at least 1"
  | language cause => cause.message

namespace Settings

def validate (s : Settings) : Except SettingsError Unit :=
  if s.searchExtensions.isEmpty then .error .noSearchExtensions
  else if s.usageLimit = 0 then .error .usageLimitZero
  else if s.snippetWidth = 0 then .error .snippetWidthZero
  else .ok ()

/-- The built-in languages and those of the settings. -/
def table (s : Settings) : Except SettingsError LanguageTable :=
  match LanguageTable.builtin.define s.languages with
  | .ok t => .ok t
  | .error cause => .error (.language cause)

end Settings

/-- Settings together with the languages that they are used with. -/
structure Engine where
  settings : Settings
  table : LanguageTable

/-- The engine of valid settings. -/
def Engine.ofSettings (s : Settings) : Except SettingsError Engine := do
  s.validate
  return ⟨s, ← s.table⟩

end Ripple
