import Ripple.Settings
import Ripple.Toml.Parser

/-!
Settings out of a TOML document. Missing fields keep their defaults, and fields that are not known
are passed over.
-/

namespace Ripple.Toml

/-- The fields of a record, which is a table, or an array with the fields in their order. A date or
a time counts as a table with none of them. -/
def fields (names : List String) : Toml → Except Error Entries
  | table _ entries => .ok entries
  | moment => .ok []
  | array items | tables items => .ok (names.zip items)
  | _ => .error (.wrongType "table")

/-- A field, or the default if it is missing. -/
def fieldOr {α : Type} (entries : Entries) (name : String) (read : Toml → Except Error α)
    (default : α) : Except Error α :=
  match entries.lookup name with
  | some value => read value
  | none => .ok default

/-- A field that must not be missing. -/
def requiredField {α : Type} (entries : Entries) (name : String)
    (read : Toml → Except Error α) : Except Error α :=
  match entries.lookup name with
  | some value => read value
  | none => .error (.missing name)

def readText : Toml → Except Error String
  | text value => .ok value
  | _ => .error (.wrongType "string")

def readBool : Toml → Except Error Bool
  | boolean value => .ok value
  | _ => .error (.wrongType "boolean")

def readNat : Toml → Except Error Nat
  | integer (.ofNat n) => .ok n
  | _ => .error (.wrongType "unsigned integer")

def readList {α : Type} (read : Toml → Except Error α) : Toml → Except Error (List α)
  | array items | tables items => items.mapM read
  | _ => .error (.wrongType "array")

def isEmpty : Toml → Bool
  | array items | tables items => items.isEmpty
  | table _ entries => entries.isEmpty
  | _ => false

/-- The name and the content of a variant: a string alone, or a table with the one entry. -/
def readVariant : Toml → Except Error (String × Option Toml)
  | text name => .ok (name, none)
  | table _ [(name, content)] => .ok (name, some content)
  | _ => .error (.wrongType "string or table with one entry")

/-- A variant without content. As an entry of a table it has an empty array or table. -/
def readChoice {α : Type} (choices : List (String × α)) (value : Toml) : Except Error α := do
  let (name, content) ← readVariant value
  match choices.lookup name with
  | none => .error (.unknownVariant name)
  | some choice => if content.all isEmpty then return choice else .error (.wrongType "empty table")

end Ripple.Toml

namespace Ripple

open Toml

def SymbolKind.ofToml : Toml → Except Toml.Error SymbolKind :=
  readChoice ([function, type, constant, var].map fun k => (k.label, k))

def OutputFormat.ofToml : Toml → Except Toml.Error OutputFormat :=
  readChoice ([plain, json, markdown].map fun f => (f.label, f))

def Visibility.ofToml (value : Toml) : Except Toml.Error Visibility := do
  match ← readVariant value with
  | ("modifier", some word) => return modifier (← readText word)
  | ("modifier", none) => .error (.wrongType "table with one entry")
  | _ => readChoice plain value
where
  /-- The variants without content. -/
  plain : List (String × Visibility) :=
    [("no_leading_underscore", noLeadingUnderscore), ("capitalized", capitalized),
      ("exported", exported)]

def ExportDefinition.ofToml (value : Toml) : Except Toml.Error ExportDefinition := do
  let entries ← fields ["pattern", "kind", "visibility"] value
  return {
    pattern := ← requiredField entries "pattern" readText
    kind := ← requiredField entries "kind" SymbolKind.ofToml
    visibility := ← fieldOr entries "visibility" Visibility.ofToml .exported }

def LanguageDefinition.ofToml (value : Toml) : Except Toml.Error LanguageDefinition := do
  let entries ← fields
    ["name", "extensions", "export_patterns", "import_patterns", "dependency_patterns", "stdlib"]
    value
  let texts := readList readText
  return {
    name := ← fieldOr entries "name" readText ""
    extensions := ← fieldOr entries "extensions" texts []
    exportPatterns := ← fieldOr entries "export_patterns" (readList ExportDefinition.ofToml) []
    importPatterns := ← fieldOr entries "import_patterns" texts []
    dependencyPatterns := ← fieldOr entries "dependency_patterns" texts []
    stdlib := ← fieldOr entries "stdlib" texts [] }

def Settings.ofToml (value : Toml) : Except Toml.Error Settings := do
  let entries ← fields [] value
  let d : Settings := {}
  let texts := readList readText
  let some? (t : Toml) := some <$> readNat t
  return {
    skipDirs := ← fieldOr entries "skip_dirs" texts d.skipDirs
    searchExtensions := ← fieldOr entries "search_extensions" texts d.searchExtensions
    usageLimit := ← fieldOr entries "usage_limit" readNat d.usageLimit
    snippetWidth := ← fieldOr entries "snippet_width" readNat d.snippetWidth
    deadlineMs := ← fieldOr entries "deadline_ms" some? d.deadlineMs
    maxFileSize := ← fieldOr entries "max_file_size" some? d.maxFileSize
    honourIgnoreFiles := ← fieldOr entries "respect_gitignore" readBool d.honourIgnoreFiles
    languages := ← fieldOr entries "languages" (readList LanguageDefinition.ofToml) d.languages
    outputFormat := ← fieldOr entries "output_format" OutputFormat.ofToml d.outputFormat }

end Ripple
