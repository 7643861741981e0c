import Ripple.Language.Extract

/-!
Languages that a user defines by patterns alone. A definition is checked as a whole before it is
used: every pattern has to be one, and to have the groups that an analysis asks it for.
-/

namespace Ripple

/-- A pattern for declarations, as it is written down. -/
structure ExportDefinition where
  pattern : String
  kind : SymbolKind
  visibility : Visibility := .exported
  deriving DecidableEq, Repr

/-- A language as it is written down. -/
structure LanguageDefinition where
  name : String := ""
  extensions : List String := []
  /-- Without any, declarations are not looked for. -/
  exportPatterns : List ExportDefinition := []
  importPatterns : List String := []
  /-- Templates for an import of a module. -/
  dependencyPatterns : List String := []
  stdlib : List String := []
  deriving DecidableEq, Repr

/-- The reason for which a definition is refused. -/
inductive DefinitionError where
  | nameEmpty
  | noExtensions (language : String)
  | noNameGroup (pattern : String)
  | noModuleGroup (pattern : String)
  | noPlaceholder (template : String)
  | badPattern (pattern : String) (cause : Regex.SyntaxError)
  deriving DecidableEq, Repr

def DefinitionError.message : DefinitionError → String
  | nameEmpty => "Configuration error: language name must not be empty"
  | noExtensions language => s!"Configuration error: language `{language}` declares no extensions"
  | noNameGroup pattern =>
    s!"Configuration error: export pattern `{pattern}` has no `name` capture group"
  | noModuleGroup pattern =>
    s!"Configuration error: import pattern `{pattern}` has no capture group for the module"
  | noPlaceholder template =>
    s!"Configuration error: dependency pattern `{template}` is missing the " ++
      "\x7bname\x7d placeholder"
  | badPattern pattern cause => s!"Invalid pattern `{pattern}`: {cause.message}"

/-- A file extension in lower case, without leading dots. -/
def Language.normalExtension (ext : String) : String :=
  String.ofList ((ext.toList.dropWhile (· = '.')).map Char.toLower)

namespace LanguageDefinition

/-- Reads a pattern of a definition. -/
def readPattern (source : String) : Except DefinitionError Pattern :=
  match Pattern.compile source with
  | .ok p => .ok p
  | .error cause => .error (.badPattern source cause)

/-- Reads a pattern for declarations, which has to name what is declared. -/
def readExport (e : ExportDefinition) : Except DefinitionError ExportRule := do
  let pattern ← readPattern e.pattern
  if (pattern.groupIndex? "name").isSome then return ⟨pattern, e.kind, e.visibility⟩
  else .error (.noNameGroup e.pattern)

/-- Reads a pattern for imports, whose first group is the module. -/
def readImport (source : String) : Except DefinitionError ImportRule := do
  let pattern ← readPattern source
  if pattern.groupCount < 2 then .error (.noModuleGroup source)
  else return ⟨pattern, .whole⟩

/-- Tries a template with a sample name in its place. -/
def checkTemplate (template : String) : Except DefinitionError Unit := do
  if Text.contains Language.placeholder template.toList then
    let _ ← readPattern (Language.fill template "module")
  else .error (.noPlaceholder template)

/-- A module is a standard one if it is listed, or its part before the first separator is; it is
internal if it begins like a path. -/
def classify (stdlib : List String) (name : String) : Origin :=
  let root := String.ofList (name.toList.takeWhile fun c => !(c = '.' || c = '/' || c = ':'))
  if stdlib.contains name || stdlib.contains root then .stdlib
  else if name.toList.head? = some '.' || name.toList.head? = some '/' then .internal
  else .external

/-- The language of a definition. -/
def compile (d : LanguageDefinition) : Except DefinitionError Language := do
  if (Text.trim d.name.toList).isEmpty then .error .nameEmpty
  else if d.extensions.isEmpty then .error (.noExtensions d.name)
  else
    let exports ← d.exportPatterns.mapM readExport
    let imports ← d.importPatterns.mapM readImport
    d.dependencyPatterns.forM checkTemplate
    return {
      name := d.name
      extensions := d.extensions.map Language.normalExtension
      exportRules := if exports.isEmpty then none else some exports
      exportGroups := []
      importRules := imports
      localImportRules := []
      templates := d.dependencyPatterns
      classify := classify d.stdlib }

end LanguageDefinition

end Ripple
