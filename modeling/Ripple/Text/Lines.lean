import Ripple.Text.Basic

/-!
Lines of a text. Lines are counted from one, and a line begins behind each line feed.
-/

namespace Ripple

/-- The byte offsets at which the lines of a text begin, in ascending order. -/
structure LineIndex where
  starts : Array Nat

namespace LineIndex

/-- Adds the line starts behind the line feeds of a text that begins at the given offset. -/
def addStarts : List Char → Nat → Array Nat → Array Nat
  | [], _, starts => starts
  | c :: cs, offset, starts =>
    let next := offset + c.utf8Size
    addStarts cs next (if c = '\n' then starts.push next else starts)

/-- The line starts of a text. -/
def ofText (text : List Char) : LineIndex := ⟨addStarts text 0 #[0]⟩

/-- What a search in an ascending array comes to: the index of the entry, or the index at which it
would have to be put in. -/
inductive Lookup where
  | hit (index : Nat)
  | miss (index : Nat)

/-- Looks for the entry `x` by halving. The entries before `lo` are smaller, those from `hi` on are
larger. -/
def search (starts : Array Nat) (x : Nat) : Nat → Nat → Nat → Lookup
  | 0, lo, _ => .miss lo
  | bound + 1, lo, hi =>
    if lo < hi then
      let mid := (lo + hi) / 2
      let entry := starts.getD mid 0
      if entry = x then .hit mid
      else if entry < x then search starts x bound (mid + 1) hi
      else search starts x bound lo mid
    else .miss lo

/-- The line of a byte offset: the one that begins there, or else the one before the place at which
such a line would begin. Offsets beyond the text belong to its last line. -/
def lineOf (index : LineIndex) (offset : Nat) : Nat :=
  match search index.starts offset index.starts.size 0 index.starts.size with
  | .hit i => i + 1
  | .miss i => i

end LineIndex

namespace Text

/-- Cuts a text behind each line feed. The last piece is left out if it is empty. -/
def linePieces (text : List Char) : List (List Char) :=
  text.foldr
    (fun c pieces =>
      if c = '\n' then [c] :: pieces
      else match pieces with
        | piece :: rest => (c :: piece) :: rest
        | [] => [[c]])
    []

/-- A line without its end: a line feed, or a carriage return and a line feed. -/
def stripLineEnd (line : List Char) : List Char :=
  match line.reverse with
  | '\n' :: '\r' :: rest => rest.reverse
  | '\n' :: rest => rest.reverse
  | _ => line

/-- The lines of a text, without their ends. -/
def lines (text : List Char) : List (List Char) := (linePieces text).map stripLineEnd

end Text

end Ripple
