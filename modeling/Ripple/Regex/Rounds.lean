import Std.Data.TreeSet

/-!
Exploring the rounds of a repetition. A state stands at an offset of the text, and what can follow
it depends on the offset alone, so that of the states that arrive at one place with one offset only
the first, which is the preferred one, is followed up.
-/

namespace Ripple

/-- The states found so far, the latest first, and the offsets explored so far. -/
structure Explored (σ : Type) where
  seen : Std.TreeSet Nat
  found : List σ

namespace Rounds

variable {σ : Type} (offset : σ → Nat)

/-- The states of a list without those that repeat the offset of an earlier one. -/
def distinct : List σ → List σ
  | [] => []
  | [e] => [e]
  | es => go es ∅
where
  go : List σ → Std.TreeSet Nat → List σ
    | [], _ => []
    | e :: es, seen =>
      if seen.contains (offset e) then go es seen else e :: go es (seen.insert (offset e))

/-- Explores the ends of any number of further rounds from a state. The list bounds the number of
rounds that consume something; a round that consumes nothing leads to no new offset. -/
def further (next : σ → List σ) (greedy : Bool) : List Char → σ → Explored σ → Explored σ
  | bound, e, x =>
    if x.seen.contains (offset e) then x
    else
      let entered : Explored σ :=
        ⟨x.seen.insert (offset e), if greedy then x.found else e :: x.found⟩
      let more := match bound with
        | [] => entered
        | _ :: bound => (next e).foldl (fun x f => further next greedy bound f x) entered
      if greedy then { more with found := e :: more.found } else more

/-- The ends of any number of further rounds from some states, the preferred one first. -/
def many (next : σ → List σ) (greedy : Bool) (bound : σ → List Char) (es : List σ) : List σ :=
  (es.foldl (fun x e => further offset next greedy (bound e) e x) ⟨∅, []⟩).found.reverse

/-- The ends of any number of rounds from some states, none at all included, where the states
themselves are no ends of rounds. -/
def anyNumber (next : σ → List σ) (greedy : Bool) (bound : σ → List Char) (es : List σ) : List σ :=
  distinct offset (es.foldl visit ⟨∅, []⟩).found.reverse
where
  visit (x : Explored σ) (e : σ) : Explored σ :=
    let x := if greedy then x else { x with found := e :: x.found }
    let x := (next e).foldl (fun x f => further offset next greedy (bound f) f x) x
    if greedy then { x with found := e :: x.found } else x

/-- Carries states on by exactly the given number of rounds, of which `next` gives each by its
number. -/
def copies (next : Nat → List σ → List σ) : Nat → Nat → List σ → List σ
  | _, _, [] => []
  | _, 0, es => es
  | i, n + 1, es => copies next (i + 1) n (next i es)

/-- The states found so far, the latest first, and the pairs of a number of rounds left and an
offset explored so far. -/
structure Counted (σ : Type) where
  seen : Std.TreeSet (Nat × Nat) lexOrd.compare
  found : List σ

/-- Explores the ends of at most the given number of rounds from a state, of which `next` gives each
by the number of those left behind it. -/
def atMost (next : Nat → σ → List σ) (greedy : Bool) : Nat → σ → Counted σ → Counted σ
  | n, e, x =>
    if x.seen.contains (n, offset e) then x
    else
      let entered : Counted σ :=
        ⟨x.seen.insert (n, offset e), if greedy then x.found else e :: x.found⟩
      let more := match n with
        | 0 => entered
        | n + 1 => (next n e).foldl (fun x f => atMost next greedy n f x) entered
      if greedy then { more with found := e :: more.found } else more

/-- The ends of at most the given number of rounds from some states, the preferred one first. -/
def upTo (next : Nat → σ → List σ) (greedy : Bool) (n : Nat) (es : List σ) : List σ :=
  distinct offset
    (es.foldl (fun x e => atMost offset next greedy n e x) ⟨∅, []⟩).found.reverse

end Rounds

end Ripple
