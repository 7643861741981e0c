import Ripple.Regex.Match
import Ripple.Regex.Rounds

/-!
Repetitions of expressions that may match the empty text. They could go round at one point of the
text without end. So a way through such an expression remembers the choices it has come to since it
last consumed a character, and a way that comes to one of them again is given up: whatever could
follow is found from the first time on.
-/

namespace Ripple

namespace Regex

/-- Whether an expression may match the empty text. -/
def nullable : Regex → Bool
  | empty | assert _ => true
  | char _ | set _ => false
  | seq r s => r.nullable && s.nullable
  | alt r s => r.nullable || s.nullable
  | group _ r => r.nullable
  | rep r min _ _ => min = 0 || r.nullable

/-- The parts of a sequence. -/
def parts : Regex → List Regex
  | empty => []
  | seq r s => r.parts ++ s.parts
  | r => [r]

/-- The alternatives of a choice. -/
def alternatives : Regex → List Regex
  | alt r s => r.alternatives ++ s.alternatives
  | r => [r]

/-- What a list has in common with the beginning of another. -/
def common : List Regex → List Regex → List Regex
  | r :: rs, s :: ss => if r = s then r :: common rs ss else []
  | _, _ => []

/-- The choice between some expressions. What all of them begin with stands in front of the choice,
if something follows it in each. -/
def ofAlternatives (rs : List Regex) : Regex :=
  match rs with
  | [] => empty
  | r :: others =>
    let front := others.foldl (fun front s => common front s.parts) r.parts
    if front.isEmpty || rs.any fun s => s.parts.length < 2 then alts rs
    else seqs (front ++ [alts (rs.map fun s => seqs (s.parts.drop front.length))])

/-- The expression with what all alternatives of a choice begin with in front of the choice. Of two
ways through the same parts, only one is left. -/
def factored : Regex → Regex
  | seq r s => seq r.factored s.factored
  | alt r s => ofAlternatives (alt r.factored s.factored).alternatives
  | group i r => group i r.factored
  | rep r min max greedy => rep r.factored min max greedy
  | r => r

end Regex

/-- A place within an expression, as the turns that lead to it, the last one first. -/
abbrev Place := List Nat

/-- A match on its way. -/
structure Way extends Match where
  /-- The choices that the match has come to since it last consumed a character. -/
  trail : List Place

namespace Way

def offset (w : Way) : Nat := w.toMatch.offset

/-- The way on by one character that passes the test. -/
def step? (w : Way) (test : Char → Bool) : Option Way :=
  (w.toMatch.step? test).map fun m => ⟨m, []⟩

def enter (w : Way) (index : Nat) : Way := { w with toMatch := w.toMatch.enter index }

def leave (w : Way) (index : Nat) : Way := { w with toMatch := w.toMatch.leave index }

/-- The way on to a choice, unless it has been there. -/
def reach? (w : Way) (choice : Place) : Option Way :=
  if w.trail.contains choice then none else some { w with trail := choice :: w.trail }

end Way

namespace Regex

/-- Carries matches on through an expression at a place, the preferred one first. Each round of a
counted repetition is a place of its own, and so is the choice before it; the rounds of an unbounded
one from the last required on are a single place, with a choice behind it. -/
def ways : Regex → Place → List Way → List Way
  | empty, _, ws => ws
  | char c, _, ws => ws.filterMap (·.step? (· = c))
  | set s, _, ws => ws.filterMap (·.step? s.mem)
  | assert a, _, ws => ws.filter (a.holds ·.stop)
  | seq r s, place, ws =>
    match r.ways (0 :: place) ws with
    | [] => []
    | ws => s.ways (1 :: place) ws
  | alt r s, place, ws =>
    Rounds.distinct Way.offset <| (ws.filterMap (·.reach? place)).flatMap fun w =>
      r.ways (0 :: place) [w] ++ s.ways (1 :: place) [w]
  | group i r, place, ws => (r.ways (0 :: place) (ws.map (·.enter i))).map (·.leave i)
  | rep r min max greedy, place, ws =>
    let round := fun (i : Nat) => r.ways (i :: 0 :: place)
    let choice := fun (i : Nat) => i :: 1 :: place
    match max with
    | some max =>
      let start := Rounds.copies round 0 min ws
      let next := fun (left : Nat) (w : Way) =>
        let ends := round (max - left) [w]
        if left = 0 then ends else ends.filterMap (·.reach? (choice left))
      if min = max then start
      else
        Rounds.upTo Way.offset next greedy (max - min)
          (start.filterMap (·.reach? (choice (max - min))))
    | none =>
      let again := fun (ws : List Way) => (round min ws).filterMap (·.reach? (choice 0))
      let next := fun (w : Way) => again [w]
      match min with
      | 0 =>
        if r.nullable then
          Rounds.anyNumber Way.offset next greedy (·.stop.rest)
            (ws.filterMap (·.reach? (choice 1)))
        else Rounds.many Way.offset next greedy (·.stop.rest) (ws.filterMap (·.reach? (choice 0)))
      | n + 1 =>
        Rounds.many Way.offset next greedy (·.stop.rest) (again (Rounds.copies round 0 n ws))

/-- Carries matches on through a repetition of what may match the empty text, the preferred one
first. -/
def turns (r : Regex) (ms : List Match) : List Match :=
  (r.ways [] (ms.map (⟨·, []⟩))).map Way.toMatch

end Regex

end Ripple
