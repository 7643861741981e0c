import Ripple.Unicode.CharSet

/-!
Sets of characters as intervals of code points: ascending, and neither overlapping nor adjacent, so
that each set has one form. Surrogates are no characters and lie in no interval.
-/

namespace Ripple

/-- Intervals of code points, each with its first and its last member. -/
abbrev Intervals := List (Nat × Nat)

namespace Intervals

open Unicode

/-- The code points that are no characters. -/
def surrogates : Intervals := [(0xD800, 0xDFFF)]

/-- Puts together what overlaps or touches in a list that ascends by first members. -/
def join : Intervals → Intervals
  | [] => []
  | i :: is => go i is
where
  go : Nat × Nat → Intervals → Intervals
    | i, [] => [i]
    | i, j :: js =>
      if j.1 ≤ i.2 + 1 then go (i.1, Nat.max i.2 j.2) js else i :: go j js

def union (xs ys : Intervals) : Intervals :=
  join (List.merge xs ys fun x y => decide (x.1 ≤ y.1))

/-- What lies from `next` on between and behind some intervals. -/
def gaps (next : Nat) : Intervals → Intervals
  | [] => if next ≤ 0x10FFFF then [(next, 0x10FFFF)] else []
  | i :: is => if next < i.1 then (next, i.1 - 1) :: gaps (i.2 + 1) is else gaps (i.2 + 1) is

/-- All other characters. -/
def compl (xs : Intervals) : Intervals := gaps 0 (union xs surrogates)

def inter (xs ys : Intervals) : Intervals := compl (union (compl xs) (compl ys))

def diff (xs ys : Intervals) : Intervals := compl (union (compl xs) ys)

/-- The intervals of some points in ascending order. -/
def ofPoints (xs : List Nat) : Intervals := join (xs.map fun x => (x, x))

/-- The rows of a table of ranges. -/
def ofRanges (t : Table Nat) : Intervals := join t.toList

/-- The characters of the rows of a table of runs whose value passes a test. -/
def ofRuns {α : Type} (t : Table α) (keep : α → Bool) : Intervals :=
  let rows := t.toList
  let stops := (rows.drop 1).map (fun row => row.1 - 1) ++ [0x10FFFF]
  let kept := (rows.zip stops).filter fun row => keep row.1.2
  diff (join (kept.map fun row => (row.1.1, row.2))) surrogates

def ofCategories (gs : List Category) : Intervals := ofRuns Category.runs gs.contains

end Intervals

namespace CharSet

open Unicode

/-- The code points that differ from another one in case only, in ascending order. -/
def casePoints : List Nat :=
  let pairs := Folding.rows.flatMap fun row =>
    (List.range ((row.last - row.first) / row.stride + 1)).flatMap fun k =>
      [row.first + k * row.stride, row.target + k * row.stride]
  pairs.mergeSort fun x y => decide (x ≤ y)

/-- The intervals of a set. -/
def intervals : CharSet → Intervals
  | none => []
  | range lo hi => Intervals.diff [(lo.toNat, hi.toNat)] Intervals.surrogates
  | space => Intervals.ofRanges Listed.whiteSpace
  | digit => Intervals.ofCategories [.nd]
  | word => Intervals.ofRanges Listed.word
  | category g => Intervals.ofCategories [g]
  | script code => Intervals.ofRuns Script.runs (· = code)
  | scriptExtension code =>
    (Intervals.ofRuns Script.extensionRuns fun codes => (codes.splitOn "+").contains code).union
      ((Intervals.ofRuns Script.runs (· = code)).inter
        (Intervals.ofRuns Script.extensionRuns (· = "-")))
  | age version =>
    Intervals.ofRuns Age.runs fun v =>
      match Age.versions.idxOf? version, Age.versions.idxOf? v with
      | some limit, some first => first ≤ limit
      | _, _ => false
  | listed ranges => Intervals.ofRanges ranges
  | union s t => s.intervals.union t.intervals
  | inter s t => s.intervals.inter t.intervals
  | diff s t => s.intervals.diff t.intervals
  | compl s => s.intervals.compl
  | anyCase s =>
    s.intervals.union (Intervals.ofPoints (casePoints.filter fun x => s.anyCase.mem (Char.ofNat x)))

end CharSet

end Ripple
