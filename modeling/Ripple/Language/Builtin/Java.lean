import Ripple.Language.Basic

/-!
Java: a declaration is told from a statement by its modifiers, so a method without any is not
reported. The modifier `public` marks the public symbols.
-/

namespace Ripple.Language.Java

def typePattern : Pattern :=
  .ofText (r"(?m)^[ \t]*(?P<vis>(?:(?:public|protected|private|abstract|final|static|sealed|" ++
    r"strictfp)[ \t]+)*)(?:class|interface|enum|record|@interface)[ \t]+(?P<name>[A-Za-z_]\w*)")

def methodPattern : Pattern :=
  .ofText (r"(?m)^[ \t]*(?P<vis>(?:(?:public|protected|private|static|final|abstract|" ++
    r"synchronized|native|default)[ \t]+)+)(?:<[^>\n]+>[ \t]+)?[\w.]+(?:<[^\n(]*>)?(?:\[\])*" ++
    r"[ \t]+(?P<name>[A-Za-z_]\w*)[ \t]*\(")

def constantPattern : Pattern :=
  .ofText (r"(?m)^[ \t]*(?P<vis>(?:(?:public|protected|private)[ \t]+)?)static[ \t]+final[ \t]+" ++
    r"[\w.<>\[\], ]+?[ \t]+(?P<name>[A-Z][A-Z0-9_]*)[ \t]*=")

def importPattern : Pattern :=
  .ofText r"(?m)^[ \t]*import[ \t]+(?:static[ \t]+)?([\w.]+(?:\.\*)?)[ \t]*;"

/-- An import with the module as one of the parts of its name. -/
def templates : List String :=
  [r"(?m)^[ \t]*import[ \t]+(?:static[ \t]+)?(?:\w+\.)*{name}(?:\.[\w*]+)*[ \t]*;"]

/-- The roots of the packages that come with the platform. -/
def standardRoots : List String := ["java", "javax", "jdk", "sun"]

def classify (name : String) : Origin :=
  let root := name.toList.takeWhile (· != '.')
  if standardRoots.contains (String.ofList root) then .stdlib else .external

end Java

/-- The rules for Java. -/
def java : Language where
  name := "Java"
  extensions := ["java"]
  exportRules := some
    [⟨Java.typePattern, .type, .modifier "public"⟩,
     ⟨Java.methodPattern, .function, .modifier "public"⟩,
     ⟨Java.constantPattern, .constant, .modifier "public"⟩]
  exportGroups := []
  importRules := [⟨Java.importPattern, .whole⟩]
  localImportRules := []
  templates := Java.templates
  classify := Java.classify

end Ripple.Language
