import Ripple.Files.Path
import Ripple.Language.Builtin.CFamily
import Ripple.Language.Builtin.Go
import Ripple.Language.Builtin.Java
import Ripple.Language.Builtin.JavaScript
import Ripple.Language.Builtin.Python
import Ripple.Language.Builtin.Rust
import Ripple.Language.Definition
import Ripple.Text.Quoted

/-!
Tables of languages, which are found by the extension of a file. Where two languages claim an
extension, the one registered later has it.
-/

namespace Ripple

/-- Languages in the order of their registration. -/
structure LanguageTable where
  languages : List Language
  /-- Each claimed extension once, with the index of the language that has it. -/
  owners : List (String × Nat)

namespace LanguageTable

def empty : LanguageTable := ⟨[], []⟩

/-- Gives an extension to the language with the given index. -/
def assign (index : Nat) (owners : List (String × Nat)) (ext : String) : List (String × Nat) :=
  (ext, index) :: owners.filter fun o => o.1 != ext

/-- Adds a language, which takes over its extensions. -/
def register (t : LanguageTable) (l : Language) : LanguageTable :=
  let claimed := l.extensions.map Language.normalExtension
  ⟨t.languages ++ [l], claimed.foldl (assign t.languages.length) t.owners⟩

/-- The table with the languages of a list. -/
def ofList (languages : List Language) : LanguageTable := languages.foldl register empty

def builtin : LanguageTable :=
  ofList [.python, .javaScript, .go, .rust, .java, .cFamily]

/-- Adds the languages of some definitions; the first one that is refused stops this. -/
def define (t : LanguageTable) (definitions : List LanguageDefinition) :
    Except DefinitionError LanguageTable :=
  definitions.foldlM (fun t d => t.register <$> d.compile) t

def indexOfExtension? (t : LanguageTable) (ext : String) : Option Nat :=
  t.owners.lookup (Language.normalExtension ext)

def indexOfPath? (t : LanguageTable) (path : OsString) : Option Nat :=
  (Path.textExtension? path).bind t.indexOfExtension?

def ofExtension? (t : LanguageTable) (ext : String) : Option Language :=
  (t.indexOfExtension? ext).bind fun i => t.languages[i]?

def ofPath? (t : LanguageTable) (path : OsString) : Option Language :=
  (t.indexOfPath? path).bind fun i => t.languages[i]?

/-- The claimed extensions in ascending order. -/
def extensions (t : LanguageTable) : List String :=
  Text.ascending (t.owners.map (·.1))

/-- A short account of a table: the quoted names and the number of extensions. -/
def summary (t : LanguageTable) : String :=
  let names := t.languages.map fun l => Text.quoted l.name
  "LanguageTable \x7b languages: [" ++ Text.join ", " names ++ "], extensions: " ++
    toString t.owners.length ++ " \x7d"

end LanguageTable

end Ripple
