import Ripple.Language.Basic
import Ripple.Text.Basic

/-!
Rust: the modifier `pub`, restricted or not, marks the public symbols.
-/

namespace Ripple.Language.Rust

def functionPattern : Pattern :=
  .ofText (r"(?m)^[ \t]*(?P<vis>pub(?:\([^)]*\))?[ \t]+)?(?:(?:const|async|unsafe)[ \t]+)*" ++
    r#"(?:extern[ \t]+"[^"]*"[ \t]+)?fn[ \t]+(?P<name>[A-Za-z_]\w*)"#)

def typePattern : Pattern :=
  .ofText (r"(?m)^[ \t]*(?P<vis>pub(?:\([^)]*\))?[ \t]+)?(?:struct|enum|trait|union|type)[ \t]+" ++
    r"(?P<name>[A-Za-z_]\w*)")

def constantPattern : Pattern :=
  .ofText (r"(?m)^[ \t]*(?P<vis>pub(?:\([^)]*\))?[ \t]+)?(?:const|static(?:[ \t]+mut)?)[ \t]+" ++
    r"(?P<name>[A-Za-z_]\w*)[ \t]*:")

/-- The beginning of a use declaration, up to its first brace or star. -/
def usePattern : Pattern :=
  .ofText r"(?m)^[ \t]*(?:pub(?:\([^)]*\))?[ \t]+)?use[ \t]+(?:::)?([\w:]+)"

def cratePattern : Pattern :=
  .ofText r"(?m)^[ \t]*extern[ \t]+crate[ \t]+(\w+)"

/-- A whole use declaration, over any number of lines. -/
def useBlockPattern : Pattern :=
  .ofText r"(?m)^[ \t]*(?:pub(?:\([^)]*\))?[ \t]+)?use[ \t]+[^;]*;"

/-- A module named anywhere in a use declaration, and the declaration of a module. -/
def templates : List String :=
  [r"(?m)^[ \t]*(?:pub(?:\([^)]*\))?[ \t]+)?use[ \t]+[^;]*\b{name}\b",
   r"(?m)^[ \t]*(?:pub(?:\([^)]*\))?[ \t]+)?mod[ \t]+{name}[ \t]*;"]

def standardCrates : List String := ["std", "core", "alloc", "proc_macro", "test"]

/-- The path roots that stay within the crate. -/
def localRoots : List String := ["crate", "self", "super"]

/-- What precedes the first path separator. -/
def rootOf : List Char → List Char
  | ':' :: ':' :: _ => []
  | c :: cs => c :: rootOf cs
  | [] => []

def classify (name : String) : Origin :=
  let root := String.ofList (rootOf name.toList)
  if standardCrates.contains root then .stdlib
  else if localRoots.contains root then .internal
  else .external

end Rust

/-- The rules for Rust. -/
def rust : Language where
  name := "Rust"
  extensions := ["rs"]
  exportRules := some
    [⟨Rust.functionPattern, .function, .modifier "pub"⟩,
     ⟨Rust.typePattern, .type, .modifier "pub"⟩,
     ⟨Rust.constantPattern, .constant, .modifier "pub"⟩]
  exportGroups := []
  importRules :=
    [⟨Rust.usePattern, .path⟩, ⟨Rust.cratePattern, .path⟩, ⟨Rust.useBlockPattern, .extent⟩]
  localImportRules := []
  templates := Rust.templates
  classify := Rust.classify

end Ripple.Language
