import Ripple.Regex.Cycle

/-!
Matching and searching. `Regex.extend` carries matches on through an expression. It lists all ways
to do so, the preferred one first, but of those that come to the same point only the first: what can
follow depends on the point alone. A search takes the first point of the text from which there is a
match, and there the preferred one.
-/

namespace Ripple

namespace Regex

/-- Extends a match by each further character that passes the test, at most `limit` of them, up to a
point that is already known. The longest match comes first, in front of those in `found`. -/
def run (test : Char → Bool) (known : Nat → Bool) :
    List Char → Option Nat → Match → List Match → List Match
  | [], _, _, found => found
  | c :: cs, limit, m, found =>
    if limit ≠ some 0 ∧ test c then
      let m := m.behind c cs
      if known m.offset then found
      else run test known cs (limit.map (· - 1)) m (m :: found)
    else found

/-- Extends a match by any number of characters that pass the test, at most `limit` of them. -/
def runOne (test : Char → Bool) (limit : Option Nat) (greedy : Bool) (m : Match) : List Match :=
  let found := run test (fun _ => false) m.stop.rest limit m [m]
  if greedy then found else found.reverse

/-- Adds to what has been explored the matches that extend `m` by characters that pass the test. -/
def explore (test : Char → Bool) (greedy : Bool) (x : Explored Match) (m : Match) :
    Explored Match :=
  if x.seen.contains m.offset then x
  else
    let found := run test x.seen.contains m.stop.rest none m [m]
    { seen := found.foldl (fun seen m => seen.insert m.offset) x.seen
      found := (if greedy then found.reverse else found) ++ x.found }

/-- Extends matches by any number of characters that pass the test. -/
def runs (test : Char → Bool) (greedy : Bool) (ms : List Match) : List Match :=
  match ms with
  | [m] => runOne test none greedy m
  | ms => (ms.foldl (explore test greedy) ⟨∅, []⟩).found.reverse

/-- The test for the one character that `r` consumes, if it is of that kind. -/
def single? : Regex → Option (Char → Bool)
  | char c => some (· = c)
  | set s => some s.mem
  | _ => none

/-- Extends matches by any number of rounds of `r`, but at most `limit`. What one round makes of
matches, `body` gives. -/
def further (r : Regex) (body : List Match → List Match) (limit : Option Nat) (greedy : Bool)
    (ms : List Match) : List Match :=
  match r.single?, limit with
  | some test, none => runs test greedy ms
  | some test, limit => Rounds.distinct Match.offset (ms.flatMap (runOne test limit greedy))
  | none, some limit => Rounds.upTo Match.offset (fun _ m => body [m]) greedy limit ms
  | none, none => Rounds.many Match.offset (fun m => body [m]) greedy (·.stop.rest) ms

/-- Carries matches on through an expression, the preferred one first. -/
def extend : Regex → List Match → List Match
  | empty, ms => ms
  | char c, ms => ms.filterMap (·.step? (· = c))
  | set s, ms => ms.filterMap (·.step? s.mem)
  | assert a, ms => ms.filter (a.holds ·.stop)
  | seq r s, ms =>
    match r.extend ms with
    | [] => []
    | ms => s.extend ms
  | alt r s, ms => Rounds.distinct Match.offset (ms.flatMap fun m => r.extend [m] ++ s.extend [m])
  | group i r, ms => (r.extend (ms.map (·.enter i))).map (·.leave i)
  | rep r min max greedy, ms =>
    if max.isNone && r.nullable then
      (rep r.factored min max greedy).turns ms
    else
      r.further r.extend (max.map (· - min)) greedy
        (Rounds.copies (fun _ => r.extend) 0 min ms)

/-- The preferred match that begins at `p`. -/
def matchAt? (r : Regex) (p : Point) : Option Match :=
  (r.extend [.ofPoint p]).head?

/-- Looks for the first match that begins at `p` or later. Points are tried a block at a time, each
block twice as long as the one before it; the list bounds the number of blocks before the last. -/
def searchFrom (r : Regex) : List Char → Nat → Point → Option Match
  | [], _, p => r.matchAt? p
  | _ :: bound, size, p =>
    let (block, next) := p.block size
    match r.extend (block.map .ofPoint), next with
    | m :: _, _ => some m
    | [], some q => searchFrom r bound (2 * size) q
    | [], none => none

/-- The first match at or behind a point. -/
def search? (r : Regex) (p : Point) : Option Match :=
  r.searchFrom p.rest 1 p

/-- Whether there is a match anywhere in a text. -/
def matchesIn (r : Regex) (text : List Char) : Bool :=
  (r.search? (Point.start text)).isSome

/-- The next match at or behind `p`, where the last one ended at the offset `last`. An empty match
right at the end of the last one is passed over, and the search goes on one character later. -/
def nextMatch? (r : Regex) (p : Point) (last : Option Nat) : Option Match :=
  match r.search? p with
  | none => none
  | some m =>
    if m.start.offset = m.stop.offset ∧ some m.stop.offset = last then
      match p.step? fun _ => true with
      | some q => r.search? q
      | none => none
    else some m

/-- At most `bound` successive matches from `p` on, put in front of `found` in reverse. -/
def matchesFrom (r : Regex) : Nat → Point → Option Nat → List Match → List Match
  | 0, _, _, found => found
  | bound + 1, p, last, found =>
    match r.nextMatch? p last with
    | none => found
    | some m => matchesFrom r bound m.stop (some m.stop.offset) (m :: found)

/-- All successive matches in a text, from left to right, without overlap. -/
def matchesOf (r : Regex) (text : List Char) : List Match :=
  (r.matchesFrom (text.length + 1) (Point.start text) none []).reverse

end Regex

end Ripple
