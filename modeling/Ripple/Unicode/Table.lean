/-!
Tables over the code points. A character property of the standard is either a set of code points,
written as hexadecimal ranges in ascending order, or a division of all code points into runs that
share a value, written as values with run lengths. Both are read from text once and searched by
halving.
-/

namespace Ripple.Unicode

/-- Rows in ascending order of their first component, the code point at which the row begins. -/
abbrev Table (α : Type) := Array (Nat × α)

namespace Table

/-- The last row that begins at or before `x`, sought among the rows from `lo` below `hi`. -/
def seek {α : Type} (t : Table α) (x lo hi : Nat) : Option α :=
  if lo < hi then
    let mid := (lo + hi) / 2
    match t[mid]? with
    | some (start, _) => if start ≤ x then t.seek x (mid + 1) hi else t.seek x lo mid
    | none => none
  else if lo = 0 then none
  else (t[lo - 1]?).map Prod.snd
termination_by hi - lo

/-- The value of the row that holds `x`. -/
def get? {α : Type} (t : Table α) (x : Nat) : Option α :=
  t.seek x 0 t.size

/-- Reads a hexadecimal number. -/
def readHex (s : String) : Nat :=
  s.toList.foldl (fun n c => n * 16 + (if c.isDigit then c.toNat - 48 else c.toNat - 87)) 0

/-- The words of some lines of text. -/
def words (lines : List String) : List String := lines.flatMap (·.splitOn " ")

/-- Reads words `lo-hi` or `lo`, each a range of code points with its last member as value. -/
def ofRanges (lines : List String) : Table Nat :=
  let rows := (words lines).map fun word =>
    match word.splitOn "-" with
    | [lo, hi] => (readHex lo, readHex hi)
    | _ => (readHex word, readHex word)
  rows.toArray

/-- Reads words `value:length` or `value`, the latter a run of one code point. -/
def ofRuns (lines : List String) : Table String :=
  let add := fun (state : Nat × Table String) (word : String) =>
    match word.splitOn ":" with
    | [value, length] => (state.1 + length.toNat?.getD 1, state.2.push (state.1, value))
    | _ => (state.1 + 1, state.2.push (state.1, word))
  ((words lines).foldl add (0, #[])).2

/-- Whether a table of ranges holds the code point `x`. -/
def holds (t : Table Nat) (x : Nat) : Bool :=
  match t.get? x with
  | some last => x ≤ last
  | none => false

end Table

end Ripple.Unicode
