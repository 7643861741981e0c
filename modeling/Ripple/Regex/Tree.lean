import Ripple.Regex.Basic

/-!
The syntax tree of a pattern: what its text says, before flags are applied.
-/

namespace Ripple.Regex

/-- Switches that a pattern may set for the rest of a group. -/
inductive Flag where
  /-- Letters match in either case. -/
  | ignoreCase
  /-- The anchors match at the ends of lines. -/
  | multiLine
  /-- The dot matches line ends too. -/
  | dotAll
  /-- Repetitions are lazy, and greedy with a question mark. -/
  | swapGreed
  /-- Characters are those of Unicode, not bytes. -/
  | unicode
  /-- A carriage return ends a line as well. -/
  | crlf
  /-- Blanks and comments in the pattern are passed over. -/
  | verbose
  deriving DecidableEq, Repr

/-- Switches to turn on and off. -/
structure FlagChange where
  on : List Flag
  off : List Flag
  deriving DecidableEq, Repr

/-- What a change says about one switch, if anything. -/
def FlagChange.state? (change : FlagChange) (flag : Flag) : Option Bool :=
  if change.on.contains flag then some true
  else if change.off.contains flag then some false
  else none

/-- A character of a pattern; `byte` if it is written as a byte of two hexadecimal digits. -/
structure Literal where
  char : Char
  byte : Bool
  deriving DecidableEq, Repr

/-- The classes with a one-letter escape. -/
inductive Shorthand where
  | digit | space | word
  deriving DecidableEq, Repr

/-- The classes of ASCII characters that may be named within brackets. -/
inductive AsciiClass where
  | alnum | alpha | ascii | blank | cntrl | digit | graph | lower | print | punct | space | upper
  | word | xdigit
  deriving DecidableEq, Repr

/-- A property of characters, by name alone or by name and value. -/
inductive PropertyQuery where
  | name (name : String)
  | value (name value : String)
  deriving DecidableEq, Repr

inductive SetOperation where
  | intersection | difference | symmetricDifference
  deriving DecidableEq, Repr

/-- The content of a bracketed class. -/
inductive ClassTree where
  | literal (l : Literal)
  | range (lo hi : Literal)
  | ascii (negated : Bool) (c : AsciiClass)
  | shorthand (negated : Bool) (c : Shorthand)
  | property (negated : Bool) (q : PropertyQuery)
  | bracket (negated : Bool) (content : ClassTree)
  | union (items : List ClassTree)
  | operation (o : SetOperation) (left right : ClassTree)
  deriving Repr

inductive Anchor where
  | lineStart | lineEnd | textStart | textEnd
  | word (edge : WordEdge)
  deriving DecidableEq, Repr

inductive GroupKind where
  | capture (index : Nat) (name : Option String)
  | plain (change : FlagChange)
  deriving DecidableEq, Repr

/-- A pattern. -/
inductive Tree where
  | empty
  | flags (change : FlagChange)
  | literal (l : Literal)
  | dot
  | anchor (a : Anchor)
  | shorthand (negated : Bool) (c : Shorthand)
  | property (negated : Bool) (q : PropertyQuery)
  | bracket (negated : Bool) (content : ClassTree)
  | rep (t : Tree) (min : Nat) (max : Option Nat) (greedy : Bool)
  | group (kind : GroupKind) (t : Tree)
  | alt (ts : List Tree)
  | cat (ts : List Tree)
  deriving Repr

namespace ClassTree

/-- A union of the given items, which for one item is the item itself. -/
def ofItems : List ClassTree → ClassTree
  | [item] => item
  | items => union items

mutual

/-- How deep brackets, unions and operations are nested. -/
def depth : ClassTree → Nat
  | literal _ | range _ _ | ascii _ _ | shorthand _ _ | property _ _ => 0
  | bracket _ content => content.depth + 1
  | union [] => 0
  | union (item :: items) => Nat.max item.depth (depthOfAll items) + 1
  | operation _ left right => Nat.max left.depth right.depth + 1

def depthOfAll : List ClassTree → Nat
  | [] => 0
  | item :: items => Nat.max item.depth (depthOfAll items)

end

end ClassTree

namespace Tree

/-- The sequence of the given trees, which for one tree is the tree itself. -/
def ofSequence : List Tree → Tree
  | [] => empty
  | [t] => t
  | ts => cat ts

/-- The choice between the given trees, which for one tree is the tree itself. -/
def ofBranches : List Tree → Tree
  | [] => empty
  | [t] => t
  | ts => alt ts

mutual

/-- How deep the parts of a tree are nested. -/
def depth : Tree → Nat
  | empty | flags _ | literal _ | dot | anchor _ | shorthand _ _ | property _ _ => 0
  | bracket _ content => content.depth + 1
  | rep t _ _ _ => t.depth + 1
  | group _ t => t.depth + 1
  | alt ts => depthOfAll ts + 1
  | cat ts => depthOfAll ts + 1

def depthOfAll : List Tree → Nat
  | [] => 0
  | t :: ts => Nat.max t.depth (depthOfAll ts)

end

end Tree

end Ripple.Regex
