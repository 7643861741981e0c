import Ripple.Unicode.CharSet

/-!
Regular expressions and the points of a text at which they are tried. A point knows how many bytes
of the text lie before it, the character just before it, and the characters after it; nothing else
of the text can influence a match that begins there.
-/

namespace Ripple

/-- Where a word may begin or end. The half conditions look at one side only. -/
inductive WordEdge where
  | boundary | noBoundary | start | stop | startHalf | stopHalf
  deriving DecidableEq, Repr

/-- Conditions on a point that consume nothing. -/
inductive Assertion where
  | textStart
  | textEnd
  | lineStart
  | lineEnd
  /-- Line conditions for which a carriage return, a line feed, or both together end a line. -/
  | crlfLineStart
  | crlfLineEnd
  /-- Word conditions, with words of the whole of Unicode or of ASCII only. -/
  | word (edge : WordEdge) (asciiOnly : Bool)
  deriving DecidableEq, Repr

/-- A regular expression. Alternatives on the left are preferred, and so is a further round of a
greedy repetition, or none of a lazy one. -/
inductive Regex where
  | empty
  | char (c : Char)
  | set (s : CharSet)
  | assert (a : Assertion)
  | seq (r s : Regex)
  | alt (r s : Regex)
  /-- Remembers what `r` matched as group `index`. -/
  | group (index : Nat) (r : Regex)
  /-- At least `min` rounds of `r`, and at most `max` if there is a bound. -/
  | rep (r : Regex) (min : Nat) (max : Option Nat) (greedy : Bool)
  deriving DecidableEq, Repr

namespace Regex

/-- The sequence of several expressions. -/
def seqs : List Regex → Regex
  | [] => empty
  | [r] => r
  | r :: rs => seq r (seqs rs)

/-- The choice between several expressions, the first of them preferred. -/
def alts : List Regex → Regex
  | [] => empty
  | [r] => r
  | r :: rs => alt r (alts rs)

/-- The literal text `cs`. -/
def literal (cs : List Char) : Regex := seqs (cs.map char)

/-- The greatest group index within an expression, zero if there is no group. -/
def groupBound : Regex → Nat
  | empty | char _ | set _ | assert _ => 0
  | seq r s | alt r s => Nat.max r.groupBound s.groupBound
  | group i r => Nat.max i r.groupBound
  | rep r _ _ _ => r.groupBound

/-- Whether group `index` occurs within an expression. -/
def hasGroup (index : Nat) : Regex → Bool
  | empty | char _ | set _ | assert _ => false
  | seq r s | alt r s => r.hasGroup index || s.hasGroup index
  | group i r => i = index || r.hasGroup index
  | rep r _ _ _ => r.hasGroup index

end Regex

/-- A point of a text. -/
structure Point where
  /-- The number of bytes before the point, in UTF-8. -/
  offset : Nat
  /-- The character before the point. -/
  before : Option Char
  /-- The characters after the point. -/
  rest : List Char
  deriving DecidableEq, Repr

namespace Point

/-- The beginning of a text. -/
def start (text : List Char) : Point := ⟨0, none, text⟩

/-- The point behind the character `c`, which is followed by `rest`. -/
def behind (p : Point) (c : Char) (rest : List Char) : Point :=
  ⟨p.offset + c.utf8Size, some c, rest⟩

/-- The next point, if the text goes on and its next character passes the test. -/
def step? (p : Point) (test : Char → Bool) : Option Point :=
  match p.rest with
  | c :: cs => if test c then some (p.behind c cs) else none
  | [] => none

/-- The first `size` points from `p` on, put behind those in `found`, which are in reverse, and the
point behind them. The list holds the characters after `p`. -/
def blockFrom : Nat → List Char → Point → List Point → List Point × Option Point
  | 0, _, p, found => (found.reverse, some p)
  | _ + 1, [], p, found => ((p :: found).reverse, none)
  | size + 1, c :: cs, p, found => blockFrom size cs (p.behind c cs) (p :: found)

/-- The first `size` points from `p` on, or all of them if they are fewer, and the point behind
them. -/
def block (p : Point) (size : Nat) : List Point × Option Point :=
  blockFrom size p.rest p []

/-- The characters that fill the first `bytes` bytes of a list, put in front of `taken` in
reverse. -/
def takeBytes : List Char → Nat → List Char → List Char
  | [], _, taken => taken
  | c :: cs, bytes, taken =>
    if bytes = 0 then taken else takeBytes cs (bytes - c.utf8Size) (c :: taken)

/-- The characters between two points. -/
def charsTo (p q : Point) : List Char :=
  (takeBytes p.rest (q.offset - p.offset) []).reverse

/-- The text between two points. -/
def textTo (p q : Point) : String := String.ofList (p.charsTo q)

end Point

namespace WordEdge

/-- Decides a word condition from whether a word character stands before and after the point. -/
def holds : WordEdge → Bool → Bool → Bool
  | boundary, b, a => b != a
  | noBoundary, b, a => b == a
  | start, b, a => !b && a
  | stop, b, a => b && !a
  | startHalf, b, _ => !b
  | stopHalf, _, a => !a

end WordEdge

namespace Assertion

def isAsciiWord (c : Char) : Bool := c.isAlphanum || c = '_'

def holds (a : Assertion) (p : Point) : Bool :=
  match a with
  | textStart => p.before.isNone
  | textEnd => p.rest.isEmpty
  | lineStart => p.before.isNone || p.before = some '\n'
  | lineEnd => p.rest.isEmpty || p.rest.head? = some '\n'
  | crlfLineStart =>
    p.before.isNone || p.before = some '\n' ||
      (p.before = some '\r' && p.rest.head? != some '\n')
  | crlfLineEnd =>
    p.rest.isEmpty || p.rest.head? = some '\r' ||
      (p.rest.head? = some '\n' && p.before != some '\r')
  | word edge asciiOnly =>
    let test := if asciiOnly then isAsciiWord else Unicode.isWord
    edge.holds (p.before.any test) (p.rest.head?.any test)

end Assertion

end Ripple
