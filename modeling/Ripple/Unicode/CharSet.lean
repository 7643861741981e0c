import Ripple.Unicode.Property

/-!
Sets of characters as expressions: ranges, the classes of the standard, and the set operations on
them. Membership follows the expression.
-/

namespace Ripple

/-- A set of characters. -/
inductive CharSet where
  | none
  | range (lo hi : Char)
  | space
  | digit
  | word
  | category (g : Unicode.Category)
  | script (code : String)
  | scriptExtension (code : String)
  | age (version : String)
  | listed (ranges : Unicode.Table Nat)
  | union (s t : CharSet)
  | inter (s t : CharSet)
  | diff (s t : CharSet)
  | compl (s : CharSet)
  /-- The members of `s` and all characters that differ from one of them in case only. -/
  | anyCase (s : CharSet)
  deriving DecidableEq, Repr

namespace CharSet

def mem : CharSet → Char → Bool
  | none, _ => false
  | range lo hi, c => lo ≤ c && c ≤ hi
  | space, c => Unicode.isSpace c
  | digit, c => Unicode.isDigit c
  | word, c => Unicode.isWord c
  | category g, c => Unicode.Category.of c = g
  | script code, c => Unicode.Script.of c = code
  | scriptExtension code, c => (Unicode.Script.extensionsOf c).contains code
  | age version, c => Unicode.Age.reached version c
  | listed ranges, c => ranges.holds c.toNat
  | union s t, c => s.mem c || t.mem c
  | inter s t, c => s.mem c && t.mem c
  | diff s t, c => s.mem c && !t.mem c
  | compl s, c => !s.mem c
  | anyCase s, c => (Unicode.Folding.variants c.toNat).any fun x => s.mem (Char.ofNat x)

def single (c : Char) : CharSet := range c c

def any : CharSet := compl none

def unions (sets : List CharSet) : CharSet := sets.foldr union none

def ranges (pairs : List (Char × Char)) : CharSet :=
  unions (pairs.map fun p => range p.1 p.2)

def categories (gs : List Unicode.Category) : CharSet := unions (gs.map category)

/-- The members of exactly one of the two sets. -/
def symmDiff (s t : CharSet) : CharSet := union (diff s t) (diff t s)

/-- What the ranges of a set hold around the surrogates, which are no characters. -/
structure Seam where
  /-- The last character before the surrogates. -/
  before : Bool
  /-- A range that leads from the one side to the other. -/
  across : Bool
  /-- The first character behind them. -/
  behind : Bool

/-- The seam of a set. Of the classes of the standard, the unassigned characters lie before the
surrogates, and those for private use, which are of every age, behind them. -/
def seam : CharSet → Seam
  | range lo hi =>
    { before := lo ≤ '\uD7FF' && '\uD7FF' ≤ hi
      across := lo ≤ '\uD7FF' && '\uE000' ≤ hi
      behind := lo ≤ '\uE000' && '\uE000' ≤ hi }
  | category g => ⟨g = .cn, g = .cs, g = .co⟩
  | age _ => ⟨false, false, true⟩
  | listed ranges =>
    { before := ranges.holds 0xD7FF
      across := (ranges.get? 0xD7FF).any (0xE000 ≤ ·)
      behind := ranges.holds 0xE000 }
  | union s t =>
    ⟨s.seam.before || t.seam.before, s.seam.across || t.seam.across,
      s.seam.behind || t.seam.behind⟩
  | inter s t =>
    ⟨s.seam.before && t.seam.before, s.seam.across && t.seam.across,
      s.seam.behind && t.seam.behind⟩
  | diff s t =>
    { before := s.seam.before && !t.seam.before
      across := s.seam.across && !t.seam.before && !t.seam.behind
      behind := s.seam.behind && !t.seam.behind }
  | compl s => ⟨!s.seam.before, !s.seam.before && !s.seam.behind, !s.seam.behind⟩
  | anyCase s => s.seam
  | none | space | digit | word | script _ | scriptExtension _ => ⟨false, false, false⟩

/-- The set of what lies before, between and behind the ranges of a set. Where one range ends right
before the surrogates and the next begins right behind them, no character lies between the two, and
these last and first characters are taken for what does. -/
def negation (s : CharSet) : CharSet :=
  if s.seam.before && s.seam.behind && !s.seam.across then
    union s.compl (range '\uD7FF' '\uE000')
  else s.compl

end CharSet

end Ripple
