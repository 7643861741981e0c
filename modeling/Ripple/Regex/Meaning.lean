import Ripple.Regex.SyntaxError
import Ripple.Regex.Tree
import Ripple.Unicode.Name

/-!
From what a pattern says to what it matches: flags are applied where they stand, and they hold to
the end of the group around them.
-/

namespace Ripple.Regex

/-- The switches in force at a place of a pattern. -/
structure Mode where
  ignoreCase : Bool := false
  multiLine : Bool := false
  dotAll : Bool := false
  swapGreed : Bool := false
  unicode : Bool := true
  crlf : Bool := false
  deriving DecidableEq, Repr

namespace Mode

/-- The switches after a change. -/
def apply (m : Mode) (change : FlagChange) : Mode where
  ignoreCase := (change.state? .ignoreCase).getD m.ignoreCase
  multiLine := (change.state? .multiLine).getD m.multiLine
  dotAll := (change.state? .dotAll).getD m.dotAll
  swapGreed := (change.state? .swapGreed).getD m.swapGreed
  unicode := (change.state? .unicode).getD m.unicode
  crlf := (change.state? .crlf).getD m.crlf

/-- Adds the other case of each letter where case is ignored. -/
def fold (m : Mode) (s : CharSet) : CharSet :=
  if !m.ignoreCase then s
  else if m.unicode then s.anyCase
  else CharSet.inter s.anyCase (CharSet.range '\x00' '\x7F')

/-- Negates a set of characters. The rest of a set of bytes is not always text. -/
def negate (m : Mode) (negated : Bool) (s : CharSet) : Except SyntaxError CharSet :=
  if !negated then .ok s
  else if m.unicode then .ok s.negation
  else .error .notText

/-- The character of a literal. A byte beyond ASCII is not text by itself. -/
def charOf (m : Mode) (l : Literal) : Except SyntaxError Char :=
  if !m.unicode && l.byte && l.char.toNat ≥ 128 then .error .notText else .ok l.char

/-- The character of a literal within a class. -/
def classCharOf (m : Mode) (l : Literal) : Except SyntaxError Char :=
  match m.charOf l with
  | .ok c => if !m.unicode && c.toNat ≥ 128 then .error .unicodeNotAllowed else .ok c
  | .error e => .error e

end Mode

namespace AsciiClass

/-- The members of a named ASCII class. -/
def toSet : AsciiClass → CharSet
  | alnum => .ranges [('0', '9'), ('A', 'Z'), ('a', 'z')]
  | alpha => .ranges [('A', 'Z'), ('a', 'z')]
  | ascii => .range '\x00' '\x7F'
  | blank => .ranges [('\t', '\t'), (' ', ' ')]
  | cntrl => .ranges [('\x00', '\x1F'), ('\x7F', '\x7F')]
  | digit => .range '0' '9'
  | graph => .range '!' '~'
  | lower => .range 'a' 'z'
  | print => .range ' ' '~'
  | punct => .ranges [('!', '/'), (':', '@'), ('[', '\x60'), ('\x7b', '~')]
  | space => .ranges [('\t', '\r'), (' ', ' ')]
  | upper => .range 'A' 'Z'
  | word => .ranges [('0', '9'), ('A', 'Z'), ('_', '_'), ('a', 'z')]
  | xdigit => .ranges [('0', '9'), ('A', 'F'), ('a', 'f')]

end AsciiClass

/-- The members of a one-letter class. -/
def Shorthand.toSet (c : Shorthand) (unicode : Bool) : CharSet :=
  match c, unicode with
  | digit, true => .digit
  | space, true => .space
  | word, true => .word
  | digit, false => AsciiClass.digit.toSet
  | space, false => AsciiClass.space.toSet
  | word, false => AsciiClass.word.toSet

/-- The characters with a property. -/
def PropertyQuery.toSet (q : PropertyQuery) (m : Mode) : Except SyntaxError CharSet :=
  if !m.unicode then .error .unicodeNotAllowed
  else
    let found := match q with
      | name n => CharSet.ofProperty? n
      | value n v => CharSet.ofPropertyValue? n v
    match found with
    | some s => .ok (m.fold s)
    | none => .error .propertyNotFound

def SetOperation.apply : SetOperation → CharSet → CharSet → CharSet
  | intersection, s, t => s.inter t
  | difference, s, t => s.diff t
  | symmetricDifference, s, t => s.symmDiff t

namespace ClassTree

mutual

/-- The members of a class. -/
def toSet (m : Mode) : ClassTree → Except SyntaxError CharSet
  | literal l => (m.classCharOf l).map CharSet.single
  | range lo hi => do
    let lo ← m.classCharOf lo
    let hi ← m.classCharOf hi
    return .range lo hi
  | ascii negated c => m.negate negated (m.fold c.toSet)
  | shorthand negated c => m.negate negated (c.toSet m.unicode)
  | property negated q => do m.negate negated (← q.toSet m)
  | bracket negated content => do m.negate negated (m.fold (← content.toSet m))
  | union items => do return .unions (← toSets m items)
  | operation o left right => do
    let s ← left.toSet m
    let t ← right.toSet m
    return o.apply (m.fold s) (m.fold t)

def toSets (m : Mode) : List ClassTree → Except SyntaxError (List CharSet)
  | [] => .ok []
  | item :: items => do
    let s ← item.toSet m
    let ss ← toSets m items
    return s :: ss

end

end ClassTree

/-- The condition that an anchor stands for. -/
def Anchor.toAssertion (a : Anchor) (m : Mode) : Assertion :=
  match a with
  | lineStart =>
    if !m.multiLine then .textStart else if m.crlf then .crlfLineStart else .lineStart
  | lineEnd =>
    if !m.multiLine then .textEnd else if m.crlf then .crlfLineEnd else .lineEnd
  | textStart => .textStart
  | textEnd => .textEnd
  | word edge => .word edge (!m.unicode)

/-- The characters that stand for `c`, itself included, where case is ignored; none if it stands for
itself only. -/
def caseForms (m : Mode) (c : Char) : List Char :=
  let variants := Unicode.Folding.variants c.toNat
  if m.ignoreCase && 1 < variants.length && (m.unicode || c.toNat < 128) then
    (variants.filter fun x => m.unicode || x < 128).map Char.ofNat
  else []

/-- The expression for one character. -/
def ofLiteral (m : Mode) (c : Char) : Regex :=
  match caseForms m c with
  | [] => char c
  | cs => set (CharSet.unions (cs.map CharSet.single))

/-- The expression for any character but a line end. -/
def ofDot (m : Mode) : Except SyntaxError Regex :=
  if !m.unicode then .error .notText
  else if m.dotAll then .ok (set .any)
  else if m.crlf then .ok (set (.compl (.union (.single '\n') (.single '\r'))))
  else .ok (set (.compl (.single '\n')))

/-- Whether an expression can match the empty text only. -/
def isBlank : Regex → Bool
  | empty | assert _ => true
  | char _ | set _ => false
  | seq r s | alt r s => r.isBlank && s.isBlank
  | group _ r => r.isBlank
  | rep r _ max _ => max = some 0 || r.isBlank

/-- The repetition of an expression. No round at all is the empty expression, whatever was to be
repeated, and one round of an expression that consumes nothing is as good as many. -/
def ofRep (r : Regex) (min : Nat) (max : Option Nat) (greedy : Bool) : Regex :=
  let (min, max) :=
    if r.isBlank then (Nat.min min 1, some (Nat.min (max.getD 1) 1)) else (min, max)
  if max = some 0 then empty
  else if min = 1 ∧ max = some 1 then r
  else rep r min max greedy

namespace Tree

mutual

/-- The expression for a tree, and the switches in force behind it. -/
def toRegex (t : Tree) (m : Mode) : Except SyntaxError (Regex × Mode) :=
  match t with
  | empty => .ok (.empty, m)
  | flags change => .ok (.empty, m.apply change)
  | literal l => do
    let c ← m.charOf l
    return (ofLiteral m c, m)
  | dot => do return (← ofDot m, m)
  | anchor a => .ok (.assert (a.toAssertion m), m)
  | shorthand negated c => do return (.set (← m.negate negated (c.toSet m.unicode)), m)
  | property negated q => do return (.set (← m.negate negated (← q.toSet m)), m)
  | bracket negated content => do
    return (.set (← m.negate negated (m.fold (← content.toSet m))), m)
  | rep t min max greedy => do
    let (r, m) ← t.toRegex m
    return (ofRep r min max (greedy != m.swapGreed), m)
  | group (.capture index _) t => do
    let (r, _) ← t.toRegex m
    return (.group index r, m)
  | group (.plain change) t => do
    let (r, _) ← t.toRegex (m.apply change)
    return (r, m)
  | alt ts => do
    let (rs, m) ← toRegexes ts m
    return (Regex.alts rs, m)
  | cat ts => do
    let (rs, m) ← toRegexes ts m
    return (Regex.seqs rs, m)

def toRegexes (ts : List Tree) (m : Mode) : Except SyntaxError (List Regex × Mode) :=
  match ts with
  | [] => .ok ([], m)
  | t :: ts => do
    let (r, m) ← t.toRegex m
    let (rs, m) ← toRegexes ts m
    return (r :: rs, m)

end

mutual

/-- The names of the groups of a tree, with their indices. -/
def groupNames : Tree → List (String × Nat)
  | rep t _ _ _ => t.groupNames
  | group (.capture index (some name)) t => (name, index) :: t.groupNames
  | group _ t => t.groupNames
  | alt ts | cat ts => groupNamesOfAll ts
  | _ => []

def groupNamesOfAll : List Tree → List (String × Nat)
  | [] => []
  | t :: ts => t.groupNames ++ groupNamesOfAll ts

end

end Tree

end Ripple.Regex
