import Ripple.Language.Basic

/-!
C and C++: includes only. The declarations of a header are too irregular to be found line by line,
so declared symbols are not looked for.
-/

namespace Ripple.Language.CFamily

/-- An include in angle brackets. -/
def systemPattern : Pattern :=
  .ofText r"(?m)^[ \t]*#[ \t]*include[ \t]*<([^>\n]+)>"

/-- An include in quotes. -/
def quotedPattern : Pattern :=
  .ofText r#"(?m)^[ \t]*#[ \t]*include[ \t]*"([^"\n]+)""#

/-- An include of a file of the given stem, in either form. -/
def templates : List String :=
  [r#"(?m)^[ \t]*#[ \t]*include[ \t]*[<"](?:[^>"\n]*/)?{name}\.\w+[>"]"#]

/-- The standard headers of C, then those of C++. -/
def standardHeaders : List String :=
  ["assert.h", "ctype.h", "errno.h", "float.h", "limits.h", "locale.h", "math.h", "setjmp.h",
   "signal.h", "stdarg.h", "stdbool.h", "stddef.h", "stdint.h", "stdio.h", "stdlib.h", "string.h",
   "time.h", "wchar.h",
   "algorithm", "array", "atomic", "chrono", "cmath", "cstdint", "cstdio", "cstdlib", "cstring",
   "deque", "exception", "filesystem", "fstream", "functional", "iomanip", "iostream", "iterator",
   "list", "map", "memory", "mutex", "numeric", "optional", "queue", "set", "sstream", "stack",
   "stdexcept", "string", "string_view", "thread", "tuple", "type_traits", "unordered_map",
   "unordered_set", "utility", "variant", "vector"]

def classify (name : String) : Origin :=
  if standardHeaders.contains name then .stdlib else .external

end CFamily

/-- The rules for C and C++. -/
def cFamily : Language where
  name := "C/C++"
  extensions := ["c", "h", "cc", "cpp", "cxx", "hh", "hpp", "hxx"]
  exportRules := none
  exportGroups := []
  importRules := [⟨CFamily.systemPattern, .whole⟩]
  localImportRules := [⟨CFamily.quotedPattern, .whole⟩]
  templates := CFamily.templates
  classify := CFamily.classify

end Ripple.Language
