import Ripple.Regex.Meaning
import Ripple.Regex.Parser
import Ripple.Regex.Search
import Ripple.Regex.Size

/-!
Patterns: a text together with the expression that it stands for.
-/

namespace Ripple

/-- A pattern that has been read. -/
structure Pattern where
  source : String
  regex : Regex
  /-- The names of groups, with their indices. -/
  names : List (String × Nat)
  deriving Repr

namespace Pattern

open Regex

/-- Reads a pattern from the characters of its text. -/
def compileChars (source : String) (cs : List Char) : Except SyntaxError Pattern := do
  let tree ← Tree.parse cs
  let (regex, _) ← tree.toRegex {}
  if !fits tree regex then .error .tooBig
  else
    let names := tree.groupNames.filter fun n => regex.hasGroup n.2
    return ⟨source, regex, names⟩

/-- Reads a pattern. -/
def compile (source : String) : Except SyntaxError Pattern := compileChars source source.toList

/-- The pattern with the characters of a text that is known to be one. A text that is not stands for
a pattern that never matches. -/
def ofChars (source : String) (cs : List Char) : Pattern :=
  match compileChars source cs with
  | .ok p => p
  | .error _ => ⟨source, .set .none, []⟩

/-- The pattern with a text that is known to be one. -/
def ofText (source : String) : Pattern := ofChars source source.toList

/-- The number of groups, the whole match included. -/
def groupCount (p : Pattern) : Nat := p.regex.groupBound + 1

/-- The index of a named group. -/
def groupIndex? (p : Pattern) (name : String) : Option Nat := p.names.lookup name

/-- Whether a pattern matches anywhere in a text. -/
def matchesIn (p : Pattern) (text : List Char) : Bool := p.regex.matchesIn text

/-- All successive matches of a pattern in a text. -/
def matchesOf (p : Pattern) (text : List Char) : List Match := p.regex.matchesOf text

/-- A text in the form of a pattern that matches exactly it. -/
def escape (text : String) : String :=
  String.ofList (text.toList.flatMap fun c => if Reading.isMeta c then ['\\', c] else [c])

end Pattern

end Ripple
