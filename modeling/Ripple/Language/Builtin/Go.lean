import Ripple.Language.Basic

/-!
Go: a name is exported if it begins with an upper-case letter. Constants, variables and types may be
declared in blocks, imports too.
-/

namespace Ripple.Language.Go

/-- A function, with or without a receiver or type parameters. -/
def functionPattern : Pattern :=
  .ofText r"(?m)^func[ \t]+(?:\([^)]*\)[ \t]*)?(?P<name>[A-Za-z_]\w*)[ \t]*[(\[]"

def typePattern : Pattern :=
  .ofText r"(?m)^type[ \t]+(?P<name>[A-Za-z_]\w*)[ \t\[]"

def constantPattern : Pattern :=
  .ofText r"(?m)^const[ \t]+(?P<name>[A-Za-z_]\w*)"

def variablePattern : Pattern :=
  .ofText r"(?m)^var[ \t]+(?P<name>[A-Za-z_]\w*)"

/-- A block of declarations, closed by a parenthesis at the beginning of a line. -/
def declarationBlockPattern : Pattern :=
  .ofText r"(?ms)^(?P<kw>const|var|type)[ \t]*\((?P<body>.*?)^\)"

/-- The names at the beginning of an entry of a block. -/
def entryPattern : Pattern :=
  .ofText r"^[ \t]*(?P<names>[A-Za-z_]\w*(?:[ \t]*,[ \t]*[A-Za-z_]\w*)*)"

/-- A single import, with or without an alias. -/
def importPattern : Pattern :=
  .ofText r#"(?m)^[ \t]*import[ \t]+(?:[\w.]+[ \t]+)?"([^"\n]+)""#

/-- A block of imports. -/
def importBlockPattern : Pattern :=
  .ofText r"(?m)^[ \t]*import[ \t]*\(([^)]*)\)"

/-- A path within a block of imports. -/
def quotedPattern : Pattern :=
  .ofText r#""([^"\n]+)""#

/-- The two import forms, with the module as the last part of the path. -/
def templates : List String :=
  [r#"(?m)^[ \t]*import[ \t]+(?:[\w.]+[ \t]+)?"(?:[^"\n]*/)?{name}""#,
   r#"(?m)^[ \t]*import[ \t]*\([^)]*"(?:[^"\n]*/)?{name}""#]

/-- The roots of the standard library's paths. -/
def standardModules : List String :=
  ["archive", "bufio", "bytes", "cmp", "compress", "container", "context", "crypto", "database",
   "debug", "embed", "encoding", "errors", "expvar", "flag", "fmt", "go", "hash", "html", "image",
   "index", "io", "iter", "log", "maps", "math", "mime", "net", "os", "path", "plugin", "reflect",
   "regexp", "runtime", "slices", "sort", "strconv", "strings", "sync", "syscall", "testing",
   "text", "time", "unicode", "unique", "unsafe"]

/-- A relative path is of the project. -/
def classify (name : String) : Origin :=
  let root := name.toList.takeWhile (· != '/')
  if standardModules.contains (String.ofList root) then .stdlib
  else if name.toList.head? = some '.' then .internal
  else .external

end Go

/-- The rules for Go. -/
def go : Language where
  name := "Go"
  extensions := ["go"]
  exportRules := some
    [⟨Go.functionPattern, .function, .capitalized⟩,
     ⟨Go.typePattern, .type, .capitalized⟩,
     ⟨Go.constantPattern, .constant, .capitalized⟩,
     ⟨Go.variablePattern, .var, .capitalized⟩]
  exportGroups := [.block Go.declarationBlockPattern Go.entryPattern]
  importRules := [⟨Go.importPattern, .whole⟩, ⟨Go.importBlockPattern, .quoted Go.quotedPattern⟩]
  localImportRules := []
  templates := Go.templates
  classify := Go.classify

end Ripple.Language
