import Ripple.Language.Basic

/-!
Python: functions, classes and upper-case constants are declared symbols; a name that begins with an
underscore is private.
-/

namespace Ripple.Language.Python

/-- A function, at any indentation. -/
def functionPattern : Pattern :=
  .ofText r"(?m)^[ \t]*(?:async[ \t]+)?def[ \t]+(?P<name>[A-Za-z_]\w*)[ \t]*\("

def classPattern : Pattern :=
  .ofText r"(?m)^[ \t]*class[ \t]+(?P<name>[A-Za-z_]\w*)"

/-- An assignment to an upper-case name at the top level, with or without an annotation. -/
def constantPattern : Pattern :=
  .ofText r"(?m)^(?P<name>[A-Z][A-Z0-9_]+)[ \t]*(?::[^=\n]*)?=(?:[^=]|$)"

/-- `from a.b import c`. -/
def fromPattern : Pattern :=
  .ofText r"(?m)^[ \t]*from[ \t]+([\w.]+)[ \t]+import\b"

/-- `import a, b.c as d`. -/
def importPattern : Pattern :=
  .ofText (r"(?m)^[ \t]*import[ \t]+([\w.]+(?:[ \t]+as[ \t]+\w+)?" ++
    r"(?:[ \t]*,[ \t]*[\w.]+(?:[ \t]+as[ \t]+\w+)?)*)")

/-- `from a import (b, c)`, over any number of lines. -/
def blockPattern : Pattern :=
  .ofText r"(?m)^[ \t]*from[ \t]+[\w.]+[ \t]+import[ \t]*\([^)]*\)"

/-- A module imported from, a module imported in a list, and a module imported as a member. -/
def templates : List String :=
  [r"(?m)^[ \t]*from[ \t]+(?:[\w.]*\.)?{name}[ \t]+import\b",
   r"(?m)^[ \t]*import[ \t]+(?:[\w.]+(?:[ \t]+as[ \t]+\w+)?[ \t]*,[ \t]*)*(?:[\w.]*\.)?{name}\b",
   r"(?m)^[ \t]*from[ \t]+[\w.]+[ \t]+import[ \t]+\(?[ \t]*" ++
     r"(?:\w+(?:[ \t]+as[ \t]+\w+)?[ \t]*,[ \t]*)*{name}\b"]

/-- The top-level modules of the standard library. -/
def standardModules : List String :=
  ["abc", "argparse", "ast", "asyncio", "base64", "bisect", "collections", "concurrent",
   "configparser", "contextlib", "copy", "csv", "ctypes", "dataclasses", "datetime", "decimal",
   "difflib", "email", "enum", "errno", "fnmatch", "fractions", "functools", "gc", "getpass",
   "glob", "gzip", "hashlib", "heapq", "hmac", "html", "http", "importlib", "inspect", "io",
   "itertools", "json", "locale", "logging", "math", "mimetypes", "multiprocessing", "operator",
   "os", "pathlib", "pickle", "platform", "pprint", "queue", "random", "re", "secrets", "select",
   "shlex", "shutil", "signal", "socket", "sqlite3", "ssl", "statistics", "string", "struct",
   "subprocess", "sys", "tempfile", "textwrap", "threading", "time", "traceback", "types",
   "typing", "unittest", "urllib", "uuid", "warnings", "weakref", "xml", "zipfile", "zlib"]

/-- A relative name or one without a dot is taken to be of the project. -/
def classify (name : String) : Origin :=
  let base := name.toList.takeWhile (· != '.')
  if standardModules.contains (String.ofList base) then .stdlib
  else if name.toList.head? = some '.' || !name.toList.contains '.' then .internal
  else .external

end Python

/-- The rules for Python. -/
def python : Language where
  name := "Python"
  extensions := ["py", "pyi", "pyw"]
  exportRules := some
    [⟨Python.functionPattern, .function, .noLeadingUnderscore⟩,
     ⟨Python.classPattern, .type, .noLeadingUnderscore⟩,
     ⟨Python.constantPattern, .constant, .noLeadingUnderscore⟩]
  exportGroups := []
  importRules :=
    [⟨Python.fromPattern, .list⟩, ⟨Python.importPattern, .list⟩, ⟨Python.blockPattern, .extent⟩]
  localImportRules := []
  templates := Python.templates
  classify := Python.classify

end Ripple.Language
