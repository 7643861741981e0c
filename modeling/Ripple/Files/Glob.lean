import Ripple.Regex.Search
import Ripple.Text.OsString

/-!
Wildcards for paths. A star or a question mark stays within one component, two stars between slashes
stand for any number of components, brackets hold a set of characters, and braces hold alternatives.
A bracket that is never closed stands for itself.
Matching is byte by byte: each byte of a path stands as the character with its number.
-/

namespace Ripple

/-- A part of a wildcard. -/
inductive Wildcard where
  | literal (c : Char)
  /-- One byte other than a slash. -/
  | one
  /-- Any bytes other than slashes. -/
  | star
  /-- Two stars at the beginning: any directories, or none. -/
  | leading
  /-- Two stars at the end: anything below a directory. -/
  | trailing
  /-- Two stars in the middle: a slash, or any directories between two slashes. -/
  | middle
  | set (negated : Bool) (ranges : List (Char × Char))
  | choice (branches : List (List Wildcard))

/-- The reason for which a text is no wildcard. -/
inductive WildcardError where
  | rangeInvalid
  | choiceUnopened
  | choiceUnclosed
  | escapeDangling
  deriving DecidableEq, Repr

/-- Wildcards that were read so far. All lists are in reverse. -/
structure Glob.Reader where
  /-- The branch that is being read. -/
  branch : List Wildcard
  /-- For each open brace, the innermost first: its finished branches and the branch around it. -/
  opened : List (List (List Wildcard) × List Wildcard)
  /-- Whether there is an opening bracket that is never closed. -/
  unclosed : Bool

namespace Glob.Reader

def push (r : Reader) (w : Wildcard) : Reader := { r with branch := w :: r.branch }

/-- Begins a choice. -/
def openChoice (r : Reader) : Reader :=
  { r with branch := [], opened := ([], r.branch) :: r.opened }

/-- Ends a branch at a comma. Outside of all braces a comma stands for itself. -/
def comma (r : Reader) : Reader :=
  match r.opened with
  | [] => r.push (.literal ',')
  | (done, outer) :: rest =>
    { r with branch := [], opened := (r.branch.reverse :: done, outer) :: rest }

/-- Ends a choice. -/
def closeChoice (r : Reader) : Except WildcardError Reader :=
  match r.opened with
  | [] => .error .choiceUnopened
  | (done, outer) :: rest =>
    let choice := .choice (r.branch.reverse :: done).reverse
    .ok { r with branch := choice :: outer, opened := rest }

/-- Puts two stars between slashes in the place of the slash before them. Next to two stars at the
beginning or at the end they add nothing. -/
def joinStars (r : Reader) (w : Wildcard) : Reader :=
  match r.branch with
  | .leading :: _ => r
  | .trailing :: _ => r
  | _ :: rest => { r with branch := w :: rest }
  | [] => r.push w

/-- Reads two stars, where `before` is the character before them and `rest` what follows. -/
def twoStars (r : Reader) (before : Option Char) (rest : List Char) : Reader × Bool :=
  let plain := ((r.push .star).push .star, false)
  if r.branch.isEmpty then
    match rest with
    | [] => (r.push .leading, false)
    | '/' :: _ => (r.push .leading, true)
    | _ => plain
  else if before = some '/' ||
      (!r.opened.isEmpty && (before = some ',' || before = some '\x7b')) then
    match rest with
    | [] => (r.joinStars .trailing, false)
    | '/' :: _ => (r.joinStars .middle, true)
    | c :: _ =>
      if (c = ',' || c = '\x7d') && !r.opened.isEmpty then (r.joinStars .trailing, false) else plain
  else plain

end Glob.Reader

namespace Glob

/-- What has been read of a set in brackets. -/
structure SetReader where
  /-- Ranges in reverse. -/
  ranges : List (Char × Char)
  /-- Whether a hyphen waits for the end of a range. -/
  inRange : Bool

/-- Reads a set behind its opening bracket and its sign of negation; none if it is never closed. A
closing bracket or a hyphen that comes first stands for itself. -/
def readSet : List Char → Bool → SetReader →
    Except WildcardError (Option (List (Char × Char) × List Char))
  | [], _, _ => .ok none
  | c :: rest, first, s =>
    if c = ']' && !first then
      let ranges := if s.inRange then ('-', '-') :: s.ranges else s.ranges
      .ok (some (ranges.reverse, rest))
    else if c = '-' && !first && !s.inRange then readSet rest false { s with inRange := true }
    else if s.inRange then
      match s.ranges with
      | (lo, _) :: others =>
        if c < lo then .error .rangeInvalid else readSet rest false ⟨(lo, c) :: others, false⟩
      | [] => .error .rangeInvalid
    else readSet rest false ⟨(c, c) :: s.ranges, false⟩

/-- Reads a wildcard, where `before` is the character read last. The first argument bounds the
number of characters. -/
def readFrom : Nat → Option Char → List Char → Reader → Except WildcardError (List Wildcard)
  | 0, _, _, r | _, _, [], r =>
    if r.opened.isEmpty then .ok r.branch.reverse else .error .choiceUnclosed
  | bound + 1, before, c :: rest, r =>
    match c, rest with
    | '?', _ => readFrom bound (some c) rest (r.push .one)
    | '*', '*' :: rest =>
      match r.twoStars before rest with
      | (r, true) => readFrom bound (some '/') (rest.drop 1) r
      | (r, false) => readFrom bound (some '*') rest r
    | '*', _ => readFrom bound (some c) rest (r.push .star)
    | '[', _ =>
      if r.unclosed then readFrom bound (some c) rest (r.push (.literal c))
      else
        let negated := rest.head? = some '!' || rest.head? = some '^'
        match readSet (if negated then rest.drop 1 else rest) true ⟨[], false⟩ with
        | .ok (some (ranges, rest)) => readFrom bound (some ']') rest (r.push (.set negated ranges))
        | .ok none => readFrom bound (some c) rest { r.push (.literal c) with unclosed := true }
        | .error e => .error e
    | '\x7b', _ => readFrom bound (some c) rest r.openChoice
    | '\x7d', _ =>
      match r.closeChoice with
      | .ok r => readFrom bound (some c) rest r
      | .error e => .error e
    | ',', _ => readFrom bound (some c) rest r.comma
    | '\\', [] => .error .escapeDangling
    | '\\', d :: rest => readFrom bound (some d) rest (r.push (.literal d))
    | c, _ => readFrom bound (some c) rest (r.push (.literal c))

/-- Reads a wildcard. -/
def parse (text : List Char) : Except WildcardError (List Wildcard) :=
  readFrom text.length none text ⟨[], [], false⟩

/-- The bytes of a string, each as the character with its number. -/
def bytesOf (s : OsString) : List Char := s.bytes.map fun b => Char.ofNat b.toNat

/-- The set for a range of characters, byte by byte: the last byte of the one and the first byte of
the other are its ends, and the remaining bytes stand for themselves. -/
def rangeSet (r : Char × Char) : CharSet :=
  let lo := bytesOf r.1.toString
  let hi := bytesOf r.2.toString
  if r.1 = r.2 then .unions (lo.map .single)
  else
    .unions ((lo.dropLast.map .single) ++ ((hi.drop 1).map .single) ++
      [.range (lo.getLast?.getD '\x00') (hi.head?.getD '\x00')])

def noSlash : CharSet := .compl (.single '/')

/-- Any number of rounds. -/
def many (s : CharSet) : Regex := .rep (.set s) 0 none true

def slash : Regex := .char '/'

end Glob

namespace Wildcard

mutual

/-- The expression of a part of a wildcard. -/
def toRegex : Wildcard → Regex
  | literal c => .literal (Glob.bytesOf c.toString)
  | one => .set Glob.noSlash
  | star => Glob.many Glob.noSlash
  | leading => .alt (.rep Glob.slash 0 (some 1) true) (.seq (Glob.many .any) Glob.slash)
  | trailing => .seq Glob.slash (Glob.many .any)
  | middle => .alt Glob.slash (.seqs [Glob.slash, Glob.many .any, Glob.slash])
  | set negated ranges =>
    let inside := CharSet.unions (ranges.map Glob.rangeSet)
    .set (if negated then .compl inside else inside)
  | choice branches => .alts (branchRegexes branches)

/-- The expressions of the parts of a wildcard, of which empty ones do not count. -/
def toRegexes : List Wildcard → List Regex
  | [] => []
  | w :: rest =>
    match w.toRegex with
    | Regex.empty => toRegexes rest
    | r => r :: toRegexes rest

/-- The expressions of branches, of which empty ones do not count. -/
def branchRegexes : List (List Wildcard) → List Regex
  | [] => []
  | branch :: rest =>
    match .seqs (toRegexes branch) with
    | Regex.empty => branchRegexes rest
    | r => r :: branchRegexes rest

end

end Wildcard

/-- A wildcard for whole paths. -/
structure Glob where
  parts : List Wildcard

namespace Glob

def ofText (text : List Char) : Except WildcardError Glob := (⟨·⟩) <$> parse text

/-- The expression that a path has to match as a whole. Two stars alone match everything. -/
def toRegex (g : Glob) : Regex :=
  match g.parts with
  | [.leading] => many .any
  | parts => .seq (.seqs (Wildcard.toRegexes parts)) (.assert .textEnd)

def isMatch (g : Glob) (path : OsString) : Bool :=
  (g.toRegex.matchAt? (.start (bytesOf path))).isSome

end Glob

end Ripple
