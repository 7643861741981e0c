import Ripple.Regex.Basic

/-!
Matches. A match is built up from left to right: it begins at a point, has come to another, and
knows where the groups passed on the way began and ended.
-/

namespace Ripple

/-- A match, from where it begins to where it has come to. -/
structure Match where
  start : Point
  stop : Point
  /-- The points at which groups began, the latest first. -/
  entered : List (Nat × Point)
  /-- The points at which groups ended, the latest first. -/
  left : List (Nat × Point)
  deriving Repr

namespace Match

/-- The empty match at a point. -/
def ofPoint (p : Point) : Match := ⟨p, p, [], []⟩

/-- The offset that a match has come to. -/
def offset (m : Match) : Nat := m.stop.offset

/-- Extends a match by the character `c`, which is followed by `rest`. -/
def behind (m : Match) (c : Char) (rest : List Char) : Match :=
  { m with stop := m.stop.behind c rest }

/-- Extends a match by the next character, if it passes the test. -/
def step? (m : Match) (test : Char → Bool) : Option Match :=
  match m.stop.rest with
  | c :: cs => if test c then some (m.behind c cs) else none
  | [] => none

def enter (m : Match) (index : Nat) : Match :=
  { m with entered := (index, m.stop) :: m.entered }

def leave (m : Match) (index : Nat) : Match :=
  { m with left := (index, m.stop) :: m.left }

/-- The points between which a group last matched. -/
def group? (m : Match) (index : Nat) : Option (Point × Point) := do
  return (← m.entered.lookup index, ← m.left.lookup index)

/-- The text of a group. -/
def text? (m : Match) (index : Nat) : Option String :=
  (m.group? index).map fun g => g.1.textTo g.2

end Match

end Ripple
