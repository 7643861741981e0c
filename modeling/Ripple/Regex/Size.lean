import Ripple.Regex.Automaton

/-!
The limit on the size of a pattern. Most patterns are far below it, which a bound on the size of
their automata shows at once; for the others the automata are laid out.
-/

namespace Ripple

namespace CharSet

/-- A bound on the number of members of a set, if it is plainly small. -/
def cardBound : CharSet → Option Nat
  | none => some 0
  | range lo hi => some (hi.toNat + 1 - lo.toNat)
  | union s t => do return (← s.cardBound) + (← t.cardBound)
  | inter s _ | diff s _ => s.cardBound
  | anyCase s => s.cardBound.map (4 * ·)
  | _ => Option.none

/-- A bound on the bytes that an automaton takes for one character of a set, and on those for one
character beyond it, the bytes for the ends of the code points apart. -/
def sizeBound : CharSet → Nat
  | none => 0
  | range _ hi => if hi.toNat < 128 then 40 else 3000
  | space => 3000
  | digit => 20000
  | word => 64000
  | category _ | script _ | scriptExtension _ => 200000
  | age _ => 500000
  | listed ranges => 3000 * ranges.size
  | union s t | inter s t | diff s t => s.sizeBound + t.sizeBound
  | compl s => s.sizeBound
  | anyCase s => s.sizeBound + Nat.min ((s.cardBound.map (800 * ·)).getD 400000) 400000

end CharSet

namespace Regex

/-- A bound on the size of both automata of an expression. -/
def sizeBound : Regex → Nat
  | empty | assert _ => 32
  | char c => 80 * c.utf8Size
  | set s => s.sizeBound + (if s.cardBound.isSome then 200 else 6000)
  | seq r s => r.sizeBound + s.sizeBound
  | alt r s => r.sizeBound + s.sizeBound + 100
  | group _ r => r.sizeBound + 64
  | rep r min none _ => r.sizeBound * Nat.max min 1 + 120
  | rep r _ (some max) _ => (r.sizeBound + 40) * max + 100

/-- Whether the automata of a pattern keep to the limit. -/
def fits (t : Tree) (r : Regex) : Bool :=
  r.sizeBound + 400 ≤ sizeLimit ||
    match t.normal {} with
    | .ok (n, _) => n.fits
    | .error _ => false

end Regex

end Ripple
