import Ripple.Regex.Pattern

/-!
What is known of a language: how its sources declare symbols, how they import modules, and which
forms an import of a given module takes.
-/

namespace Ripple

/-- What a declaration introduces. -/
inductive SymbolKind where
  | function | type | constant | var
  deriving DecidableEq, Repr

def SymbolKind.label : SymbolKind → String
  | function => "function"
  | type => "class"
  | constant => "constant"
  | var => "variable"

/-- A symbol that a source declares. -/
structure Export where
  name : String
  kind : SymbolKind
  /-- The line of the declared name, counted from one. -/
  line : Nat
  isPublic : Bool
  deriving DecidableEq, Repr

/-- Where an imported module comes from. -/
inductive Origin where
  | stdlib | internal | external
  deriving DecidableEq, Repr

def Origin.label : Origin → String
  | stdlib => "stdlib"
  | internal => "internal"
  | external => "external"

/-- A module that a source imports. -/
structure Import where
  name : String
  origin : Origin
  deriving DecidableEq, Repr

/-- How a language tells public declarations from private ones. -/
inductive Visibility where
  /-- Public unless the name begins with an underscore. -/
  | noLeadingUnderscore
  /-- Public if the name begins with an upper-case letter. -/
  | capitalized
  /-- Every declaration that the pattern finds is public. -/
  | exported
  /-- Public if the given word is among the words of the group `vis`. -/
  | modifier (word : String)
  deriving DecidableEq, Repr

/-- A pattern for declarations. Its group `name` is the declared name. -/
structure ExportRule where
  pattern : Pattern
  kind : SymbolKind
  visibility : Visibility

/-- Forms that declare several symbols at once. -/
inductive ExportGroup where
  /-- A list of names between commas, the group `names` of the pattern. An entry may rename its
  symbol; those that are no identifier or the word `default` are passed over. -/
  | nameList (pattern identifier : Pattern)
  /-- A block of declarations, the group `body` of the pattern, whose keyword is its group `kw`. The
  second pattern gives the names at the beginning of an entry. -/
  | block (pattern entry : Pattern)

/-- How the modules are read off the first group of an import pattern. -/
inductive ImportReading where
  /-- The pattern only marks the extent of an import. -/
  | extent
  /-- The trimmed text is the module. -/
  | whole
  /-- The first word of each item of a list between commas is a module. -/
  | list
  /-- The text is a path whose dangling separators `::` are dropped. -/
  | path
  /-- The first group of each match of an inner pattern is a module. -/
  | quoted (inner : Pattern)

/-- A pattern for imports. -/
structure ImportRule where
  pattern : Pattern
  reading : ImportReading

/-- A source language. -/
structure Language where
  name : String
  /-- File extensions in lower case without a leading dot. -/
  extensions : List String
  /-- The patterns for declarations; none if they are not looked for. -/
  exportRules : Option (List ExportRule)
  exportGroups : List ExportGroup
  importRules : List ImportRule
  /-- Import forms that name files of the project unless they name a standard module. Their modules
  are listed behind the others. -/
  localImportRules : List ImportRule
  /-- Patterns for an import of a module, whose name goes where they say `{name}`. -/
  templates : List String
  /-- Where a module of the given name comes from. -/
  classify : String → Origin

end Ripple
