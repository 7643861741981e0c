import Ripple.Text.OsString
import Ripple.Text.Quoted

/-!
Structured documents and their two written forms: on one line, and indented by two spaces for each
level. A document may hold what cannot be written; its writer gives up there, behind all that it has
already put out.
-/

namespace Ripple

/-- A structured document. -/
inductive Document where
  | null
  | bool (value : Bool)
  | number (value : Nat)
  | text (value : String)
  | list (items : List Document)
  /-- Named fields, in the order in which they are written. -/
  | record (fields : List (String × Document))
  /-- A value that has no written form. -/
  | unwritable

/-- How the parts of a document are set apart. -/
structure Layout where
  /-- What stands before a part at a level, and before the end of a list or a record. -/
  newLine : Nat → List Char
  /-- What stands between a name and its value. -/
  colon : List Char

namespace Layout

/-- Everything on one line. -/
def compact : Layout := ⟨fun _ => [], [':']⟩

/-- Each part on a line of its own. -/
def indented : Layout := ⟨fun level => '\n' :: List.replicate (2 * level) ' ', [':', ' ']⟩

end Layout

/-- What a writer leaves behind. -/
structure Written where
  text : String
  /-- Whether the writer came to its end. -/
  whole : Bool
  deriving DecidableEq, Repr

namespace Written

/-- A text that was written as a whole. -/
def ofText (text : String) : Written := ⟨text, true⟩

/-- What is left behind by a writer that puts out characters, and nothing more once it has given
up. -/
def ofStrokes (strokes : List (Option Char)) : Written :=
  ⟨String.ofList ((strokes.takeWhile Option.isSome).filterMap id), strokes.all Option.isSome⟩

end Written

namespace Document

/-- A path, which can be written only if it is a text. -/
def path (value : OsString) : Document :=
  match value.text? with
  | some value => text value
  | none => unwritable

/-- The written form of a character of a text. -/
def escapedChar (c : Char) : List Char :=
  match c with
  | '"' => ['\\', '"']
  | '\\' => ['\\', '\\']
  | '\x08' => ['\\', 'b']
  | '\x09' => ['\\', 't']
  | '\x0a' => ['\\', 'n']
  | '\x0c' => ['\\', 'f']
  | '\x0d' => ['\\', 'r']
  | c =>
    if c.toNat < 32 then
      ['\\', 'u', '0', '0', Nat.digitChar (c.toNat / 16), Nat.digitChar (c.toNat % 16)]
    else [c]

/-- The written form of a text. -/
def quote (value : String) : List Char :=
  '"' :: value.toList.flatMap escapedChar ++ ['"']

/-- The written form of what has no parts. -/
def atom : Document → List Char
  | null => "null".toList
  | bool true => "true".toList
  | bool false => "false".toList
  | number n => Nat.toDigits 10 n
  | text value => quote value
  | list _ => "[]".toList
  | record _ => ['\x7b', '\x7d']
  | unwritable => []

/-- Puts out characters. -/
def puts (cs : List Char) : List (Option Char) := cs.map some

mutual

/-- What the writer of a document does, one stroke after another, if the document begins at the given
level: it puts out a character, or it gives up. -/
def strokes (l : Layout) (level : Nat) : Document → List (Option Char)
  | unwritable => [none]
  | list (d :: items) =>
    puts ['['] ++ itemStrokes l (level + 1) (d :: items) ++ puts (l.newLine level ++ [']'])
  | record (f :: fields) =>
    puts ['\x7b'] ++ fieldStrokes l (level + 1) (f :: fields) ++ puts (l.newLine level ++ ['\x7d'])
  | d => puts d.atom

def itemStrokes (l : Layout) (level : Nat) : List Document → List (Option Char)
  | [] => []
  | [d] => puts (l.newLine level) ++ strokes l level d
  | d :: rest => puts (l.newLine level) ++ strokes l level d ++ some ',' :: itemStrokes l level rest

def fieldStrokes (l : Layout) (level : Nat) : List (String × Document) → List (Option Char)
  | [] => []
  | [(name, d)] => puts (l.newLine level ++ quote name ++ l.colon) ++ strokes l level d
  | (name, d) :: rest =>
    puts (l.newLine level ++ quote name ++ l.colon) ++ strokes l level d ++
      some ',' :: fieldStrokes l level rest

end

/-- Writes a document, and a line feed behind it. -/
def write (l : Layout) (d : Document) : Written := .ofStrokes (d.strokes l 0 ++ [some '\n'])

def texts (values : List String) : Document := list (values.map text)

def optionalText : Option String → Document
  | some value => text value
  | none => null

end Document

end Ripple
