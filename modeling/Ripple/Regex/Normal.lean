import Ripple.Regex.Meaning
import Ripple.Unicode.Interval

/-!
Normal forms of patterns, from which automata are built. Sequences and choices are flat, adjacent
characters make up one text, a set of one character is a text, a choice of characters is a set, and
parts that all alternatives begin with stand in front of the choice.
-/

namespace Ripple.Regex

/-- A pattern in normal form. -/
inductive Normal where
  | empty
  | text (cs : List Char)
  | set (members : Intervals)
  | assert (a : Assertion)
  | group (index : Nat) (r : Normal)
  | rep (r : Normal) (min : Nat) (max : Option Nat) (greedy : Bool)
  | cat (rs : List Normal)
  | alt (rs : List Normal)
  deriving BEq, Repr

namespace Normal

/-- The normal form of a set. -/
def ofSet (s : CharSet) : Normal :=
  match s.intervals with
  | [(x, y)] => if x = y then text [Char.ofNat x] else set [(x, y)]
  | members => set members

/-- The normal form of an expression for one character. -/
def ofAtom : Regex → Normal
  | .char c => text [c]
  | .set s => ofSet s
  | _ => empty

/-- The parts of a sequence. -/
def parts : Normal → List Normal
  | empty => []
  | cat rs => rs
  | r => [r]

/-- Puts adjacent texts together. -/
def joinTexts : List Normal → List Normal
  | [] => []
  | r :: rs =>
    match r, joinTexts rs with
    | text cs, text ds :: rest => text (cs ++ ds) :: rest
    | _, rest => r :: rest

/-- The sequence of some patterns. -/
def ofCat (rs : List Normal) : Normal :=
  match joinTexts (rs.flatMap parts) with
  | [] => empty
  | [r] => r
  | rs => cat rs

/-- The alternatives of a choice. -/
def alternatives : Normal → List Normal
  | alt rs => rs
  | r => [r]

/-- The character that a pattern stands for. -/
def char? : Normal → Option Nat
  | text [c] => some c.toNat
  | _ => none

/-- The members of the set that a pattern stands for. -/
def members? : Normal → Option Intervals
  | set members => some members
  | _ => none

/-- What a list has in common with the beginning of another. -/
def common : List Normal → List Normal → List Normal
  | r :: rs, s :: ss => if r == s then r :: common rs ss else []
  | _, _ => []

/-- The choice between some patterns, as one set if they are characters or sets. -/
def choice (rs : List Normal) : Normal :=
  match rs.flatMap alternatives with
  | [] => set []
  | [r] => r
  | rs =>
    match rs.mapM char?, rs.mapM members? with
    | some xs, _ => set (Intervals.ofPoints (xs.mergeSort fun x y => decide (x ≤ y)))
    | none, some sets => set (sets.foldl Intervals.union [])
    | none, none => alt rs

/-- The choice between some patterns. What all alternatives begin with stands in front, if each of
them is a sequence. -/
def ofAlt (rs : List Normal) : Normal :=
  match choice rs with
  | alt (r :: rs) =>
    let front := rs.foldl (fun front s => common front s.parts) r.parts
    if front.isEmpty || (r :: rs).any fun s => s.parts.length < 2 then alt (r :: rs)
    else ofCat (front ++ [choice ((r :: rs).map fun s => ofCat (s.parts.drop front.length))])
  | r => r

mutual

/-- Whether a pattern can match the empty text only. -/
def isBlank : Normal → Bool
  | empty | assert _ => true
  | text _ | set _ => false
  | group _ r => r.isBlank
  | rep r _ _ _ => r.isBlank
  | cat rs | alt rs => areBlank rs

def areBlank : List Normal → Bool
  | [] => true
  | r :: rs => r.isBlank && areBlank rs

end

/-- The repetition of a pattern. -/
def ofRep (r : Normal) (min : Nat) (max : Option Nat) (greedy : Bool) : Normal :=
  let (min, max) :=
    if r.isBlank then (Nat.min min 1, some (Nat.min (max.getD 1) 1)) else (min, max)
  if max = some 0 then empty
  else if min = 1 ∧ max = some 1 then r
  else rep r min max greedy

end Normal

namespace Tree

mutual

/-- The normal form of a tree, and the switches in force behind it. -/
def normal (t : Tree) (m : Mode) : Except SyntaxError (Normal × Mode) :=
  match t with
  | empty => .ok (.empty, m)
  | flags change => .ok (.empty, m.apply change)
  | literal l => do
    let c ← m.charOf l
    return (.ofAtom (ofLiteral m c), m)
  | dot => do return (.ofAtom (← ofDot m), m)
  | anchor a => .ok (.assert (a.toAssertion m), m)
  | shorthand negated c => do
    return (.ofSet (← m.negate negated (c.toSet m.unicode)), m)
  | property negated q => do return (.ofSet (← m.negate negated (← q.toSet m)), m)
  | bracket negated content => do
    return (.ofSet (← m.negate negated (m.fold (← content.toSet m))), m)
  | rep t min max greedy => do
    let (r, m) ← t.normal m
    return (.ofRep r min max (greedy != m.swapGreed), m)
  | group (.capture index _) t => do
    let (r, _) ← t.normal m
    return (.group index r, m)
  | group (.plain change) t => do
    let (r, _) ← t.normal (m.apply change)
    return (r, m)
  | alt ts => do
    let (rs, m) ← normals ts m
    return (.ofAlt rs, m)
  | cat ts => do
    let (rs, m) ← normals ts m
    return (.ofCat rs, m)

def normals (ts : List Tree) (m : Mode) : Except SyntaxError (List Normal × Mode) :=
  match ts with
  | [] => .ok ([], m)
  | t :: ts => do
    let (r, m) ← t.normal m
    let (rs, m) ← normals ts m
    return (r :: rs, m)

end

end Tree

end Ripple.Regex
