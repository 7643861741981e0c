import Ripple.Language.Basic
import Ripple.Text.Basic

/-!
JavaScript and TypeScript: only declarations with the keyword `export` are reported, so every symbol
found is public.
-/

namespace Ripple.Language.JavaScript

def functionPattern : Pattern :=
  .ofText (r"(?m)^[ \t]*export[ \t]+(?:default[ \t]+)?(?:async[ \t]+)?function\b[ \t]*\*?[ \t]*" ++
    r"(?P<name>[A-Za-z_$][\w$]*)")

def classPattern : Pattern :=
  .ofText (r"(?m)^[ \t]*export[ \t]+(?:default[ \t]+)?(?:abstract[ \t]+)?class[ \t]+" ++
    r"(?P<name>[A-Za-z_$][\w$]*)")

/-- Interfaces, type names and enumerations. -/
def typePattern : Pattern :=
  .ofText (r"(?m)^[ \t]*export[ \t]+(?:declare[ \t]+)?(?:interface|type|enum)[ \t]+" ++
    r"(?P<name>[A-Za-z_$][\w$]*)")

def constantPattern : Pattern :=
  .ofText r"(?m)^[ \t]*export[ \t]+(?:const|let)[ \t]+(?P<name>[A-Za-z_$][\w$]*)"

def variablePattern : Pattern :=
  .ofText r"(?m)^[ \t]*export[ \t]+var[ \t]+(?P<name>[A-Za-z_$][\w$]*)"

/-- A list of names in braces, to be exported or exported again from another module. -/
def exportListPattern : Pattern :=
  .ofText r"(?m)^[ \t]*export[ \t]*(?:type[ \t]*)?\{(?P<names>[^}]*)\}"

def identifierPattern : Pattern :=
  .ofText r"^[A-Za-z_$][\w$]*$"

/-- An import or export whose module follows on the same line or behind a closing brace. -/
def fromPattern : Pattern :=
  .ofText r#"(?m)^[ \t]*(?:import|export|\})[^'"\n]*?\bfrom[ \t]*['"]([^'"\n]+)['"]"#

/-- An import for its effects only. -/
def barePattern : Pattern :=
  .ofText r#"(?m)^[ \t]*import[ \t]*['"]([^'"\n]+)['"]"#

def requirePattern : Pattern :=
  .ofText r#"\brequire\([ \t]*['"]([^'"\n]+)['"][ \t]*\)"#

/-- An import of names in braces, over any number of lines. -/
def blockPattern : Pattern :=
  .ofText r#"(?m)^[ \t]*(?:import|export)[^'"\n;{]*\{[^}]*\}[ \t]*from[ \t]*['"][^'"\n]+['"]"#

/-- The three import forms, with the module as the last part of the path. -/
def templates : List String :=
  [r#"(?m)^[ \t]*(?:import|export|\})[^'"\n]*?\bfrom[ \t]*['"](?:[^'"\n]*/)?"# ++
     r#"{name}(?:\.[cm]?[jt]sx?)?['"]"#,
   r#"(?m)^[ \t]*import[ \t]*['"](?:[^'"\n]*/)?{name}(?:\.[cm]?[jt]sx?)?['"]"#,
   r#"\brequire\([ \t]*['"](?:[^'"\n]*/)?{name}(?:\.[cm]?[jt]sx?)?['"][ \t]*\)"#]

/-- The modules that come with the runtime. -/
def standardModules : List String :=
  ["assert", "buffer", "child_process", "cluster", "crypto", "dgram", "dns", "events", "fs",
   "http", "http2", "https", "module", "net", "os", "path", "perf_hooks", "process",
   "querystring", "readline", "stream", "string_decoder", "timers", "tls", "tty", "url", "util",
   "v8", "vm", "worker_threads", "zlib"]

/-- A name with the scheme `node:` is always a standard one; a path is of the project. -/
def classify (name : String) : Origin :=
  match Text.stripPrefix? "node:".toList name.toList with
  | some _ => .stdlib
  | none =>
    let root := name.toList.takeWhile (· != '/')
    if standardModules.contains (String.ofList root) then .stdlib
    else if name.toList.head? = some '.' || name.toList.head? = some '/' then .internal
    else .external

end JavaScript

/-- The rules for JavaScript and TypeScript. -/
def javaScript : Language where
  name := "JavaScript"
  extensions := ["js", "jsx", "mjs", "cjs", "ts", "tsx", "mts", "cts"]
  exportRules := some
    [⟨JavaScript.functionPattern, .function, .exported⟩,
     ⟨JavaScript.classPattern, .type, .exported⟩,
     ⟨JavaScript.typePattern, .type, .exported⟩,
     ⟨JavaScript.constantPattern, .constant, .exported⟩,
     ⟨JavaScript.variablePattern, .var, .exported⟩]
  exportGroups := [.nameList JavaScript.exportListPattern JavaScript.identifierPattern]
  importRules :=
    [⟨JavaScript.fromPattern, .whole⟩, ⟨JavaScript.barePattern, .whole⟩,
     ⟨JavaScript.requirePattern, .whole⟩, ⟨JavaScript.blockPattern, .extent⟩]
  localImportRules := []
  templates := JavaScript.templates
  classify := JavaScript.classify

end Ripple.Language
