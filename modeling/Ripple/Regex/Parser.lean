import Ripple.Regex.SyntaxError
import Ripple.Regex.Tree

/-!
Reading a pattern. The reader keeps the groups that are open around it on a stack and consumes at
least one character in each step, so the length of the text bounds the number of steps.
-/

namespace Ripple.Regex

/-- What is read, and the characters that follow it. -/
abbrev Reading (α : Type) := Except SyntaxError (α × List Char)

namespace Reading

/-- Passes over blanks and comments; `inComment` until the end of the line. -/
def skip : Bool → List Char → List Char
  | _, [] => []
  | true, c :: cs => skip (c != '\n') cs
  | false, c :: cs =>
    if Unicode.isSpace c then skip false cs
    else if c = '#' then skip true cs
    else c :: cs

/-- Passes over blanks and comments where the pattern allows them. -/
def blanks (verbose : Bool) (cs : List Char) : List Char :=
  if verbose then skip false cs else cs

/-- The character that follows, looked up past blanks and one comment sign where the pattern allows
them; the very next character if there is nothing else. -/
def peek (verbose : Bool) (cs : List Char) : Option Char :=
  if verbose then (find false cs).or cs.head? else cs.head?
where
  find : Bool → List Char → Option Char
    | _, [] => none
    | inComment, c :: cs =>
      if Unicode.isSpace c then find inComment cs
      else if c = '#' && !inComment then find true cs
      else some c

/-- Characters with a meaning of their own, which stand for themselves behind a backslash. -/
def isMeta (c : Char) : Bool :=
  c ∈ ['\\', '.', '+', '*', '?', '(', ')', '|', '[', ']', '\x7b', '\x7d', '^', '$', '#', '&', '-',
    '~']

/-- Characters that may stand for themselves behind a backslash. -/
def isEscapable (c : Char) : Bool :=
  isMeta c || (c.toNat < 128 && !c.isAlphanum && c != '<' && c != '>')

def hexValue? (c : Char) : Option Nat :=
  if c.isDigit then some (c.toNat - 48)
  else if 'a' ≤ c && c ≤ 'f' then some (c.toNat - 87)
  else if 'A' ≤ c && c ≤ 'F' then some (c.toNat - 55)
  else none

/-- The character with the given code point. -/
def charOfCode (n : Nat) : Except SyntaxError Char :=
  if n < 0xD800 ∨ (0xDFFF < n ∧ n < 0x110000) then .ok (Char.ofNat n) else .error .hexInvalid

/-- Reads exactly `count` hexadecimal digits onto `value`. -/
def hexDigits (verbose : Bool) : Nat → Nat → List Char → Reading Nat
  | 0, value, cs => .ok (value, cs)
  | _ + 1, _, [] => .error .escapeIncomplete
  | count + 1, value, c :: cs =>
    match hexValue? c with
    | some d => hexDigits verbose count (value * 16 + d) (blanks verbose cs)
    | none => .error .hexDigitInvalid

/-- Reads hexadecimal digits up to a closing brace. -/
def hexBraced (verbose : Bool) : Nat → Option Nat → List Char → Reading Char
  | 0, _, _ => .error .escapeIncomplete
  | _, _, [] => .error .escapeIncomplete
  | bound + 1, value, c :: cs =>
    if c = '\x7d' then
      match value with
      | none => .error .hexEmpty
      | some n => (charOfCode n).map fun c => (c, blanks verbose cs)
    else match hexValue? c with
      | some d => hexBraced verbose bound (some (value.getD 0 * 16 + d)) (blanks verbose cs)
      | none => .error .hexDigitInvalid

/-- Reads the code of a character: a fixed number of digits, or any number of them in braces. -/
def hex (verbose : Bool) (digits : Nat) (isByte : Bool) (cs : List Char) : Reading Literal :=
  match blanks verbose cs with
  | [] => .error .escapeIncomplete
  | '\x7b' :: cs =>
    let cs := blanks verbose cs
    (hexBraced verbose cs.length none cs).map fun (c, rest) => (⟨c, false⟩, rest)
  | cs =>
    match hexDigits verbose digits 0 cs with
    | .ok (n, rest) => (charOfCode n).map fun c => (⟨c, isByte⟩, rest)
    | .error e => .error e

/-- Splits a property query at the first `!=`, else at the first `:`, else at the first `=`. The
first component says that the query is negated. -/
def splitQuery (text : List Char) : Bool × PropertyQuery :=
  match splitAt2 '!' '=' text with
  | some (name, value) => (true, .value (String.ofList name) (String.ofList value))
  | none =>
    let byColon := text.span (· != ':')
    let byEqual := text.span (· != '=')
    match byColon.2, byEqual.2 with
    | _ :: value, _ => (false, .value (String.ofList byColon.1) (String.ofList value))
    | [], _ :: value => (false, .value (String.ofList byEqual.1) (String.ofList value))
    | [], [] => (false, .name (String.ofList text))
where
  /-- Splits at the first occurrence of the two given characters in a row. -/
  splitAt2 (a b : Char) : List Char → Option (List Char × List Char)
    | c :: d :: cs =>
      if c = a && d = b then some ([], cs)
      else (splitAt2 a b (d :: cs)).map fun (before, after) => (c :: before, after)
    | _ => none

/-- Reads the text of a property query up to its closing brace. -/
def bracedName (verbose : Bool) : Nat → List Char → List Char → Reading (List Char)
  | 0, _, _ => .error .escapeIncomplete
  | _, _, [] => .error .escapeIncomplete
  | bound + 1, name, c :: cs =>
    if c = '\x7d' then .ok (name.reverse, cs)
    else bracedName verbose bound (c :: name) (blanks verbose cs)

/-- Reads a property query behind its escape letter. -/
def property (verbose negated : Bool) (cs : List Char) : Reading Tree :=
  match blanks verbose cs with
  | [] => .error .escapeIncomplete
  | '\x7b' :: cs =>
    let cs := blanks verbose cs
    match bracedName verbose cs.length [] cs with
    | .ok (name, rest) =>
      let (unequal, query) := splitQuery name
      .ok (.property (negated != unequal) query, rest)
    | .error e => .error e
  | c :: cs =>
    if c = '\\' then .error .propertyInvalid
    else .ok (.property negated (.name (String.singleton c)), cs)

/-- Reads the letters and hyphens of a named word boundary. -/
def edgeName (verbose : Bool) : Nat → List Char → List Char → List Char × List Char
  | 0, name, cs => (name.reverse, cs)
  | _, name, [] => (name.reverse, [])
  | bound + 1, name, c :: cs =>
    if c.isAlpha || c = '-' then edgeName verbose bound (c :: name) (blanks verbose cs)
    else (name.reverse, c :: cs)

/-- Reads what follows a word boundary: a name in braces, or nothing if the brace begins a counted
repetition. -/
def wordEdge (verbose : Bool) (cs : List Char) : Reading WordEdge :=
  match cs with
  | '\x7b' :: inner =>
    match blanks verbose inner with
    | [] => .error .wordBoundaryIncomplete
    | c :: inner =>
      if c.isAlpha || c = '-' then
        let (name, rest) := edgeName verbose (c :: inner).length [] (c :: inner)
        match rest with
        | '\x7d' :: rest =>
          match String.ofList name with
          | "start" => .ok (.start, rest)
          | "end" => .ok (.stop, rest)
          | "start-half" => .ok (.startHalf, rest)
          | "end-half" => .ok (.stopHalf, rest)
          | _ => .error .wordBoundaryUnrecognized
        | _ => .error .wordBoundaryUnclosed
      else .ok (.boundary, cs)
  | _ => .ok (.boundary, cs)

/-- Reads an escape behind its backslash. -/
def escape (verbose : Bool) : List Char → Reading Tree
  | [] => .error .escapeIncomplete
  | c :: cs =>
    let plain := fun (d : Char) => (.ok (.literal ⟨d, false⟩, cs) : Reading Tree)
    if c.isDigit then .error .backreference
    else if isEscapable c then plain c
    else match c with
      | 'x' => (hex verbose 2 true cs).map fun (l, rest) => (.literal l, rest)
      | 'u' => (hex verbose 4 false cs).map fun (l, rest) => (.literal l, rest)
      | 'U' => (hex verbose 8 false cs).map fun (l, rest) => (.literal l, rest)
      | 'p' => property verbose false cs
      | 'P' => property verbose true cs
      | 'd' => .ok (.shorthand false .digit, cs)
      | 's' => .ok (.shorthand false .space, cs)
      | 'w' => .ok (.shorthand false .word, cs)
      | 'D' => .ok (.shorthand true .digit, cs)
      | 'S' => .ok (.shorthand true .space, cs)
      | 'W' => .ok (.shorthand true .word, cs)
      | 'a' => plain '\x07'
      | 'f' => plain '\x0c'
      | 't' => plain '\t'
      | 'n' => plain '\n'
      | 'r' => plain '\r'
      | 'v' => plain '\x0b'
      | 'A' => .ok (.anchor .textStart, cs)
      | 'z' => .ok (.anchor .textEnd, cs)
      | 'b' => (wordEdge verbose cs).map fun (edge, rest) => (.anchor (.word edge), rest)
      | 'B' => .ok (.anchor (.word .noBoundary), cs)
      | '<' => .ok (.anchor (.word .start), cs)
      | '>' => .ok (.anchor (.word .stop), cs)
      | _ => .error .escapeUnrecognized

/-! ### Classes in brackets -/

/-- An open bracket with the items read before it, or an operation with its left side. -/
inductive ClassFrame where
  | opened (negated : Bool) (outer : List ClassTree)
  | operation (o : SetOperation) (left : ClassTree)

/-- Reads hyphens, each a character of the class. -/
def leadingHyphens (verbose : Bool) :
    Nat → List ClassTree → List Char → Except SyntaxError (List ClassTree × List Char)
  | _, _, [] => .error .classUnclosed
  | 0, items, cs => .ok (items, cs)
  | bound + 1, items, c :: cs =>
    if c = '-' then
      leadingHyphens verbose bound (.literal ⟨'-', false⟩ :: items) (blanks verbose cs)
    else .ok (items, c :: cs)

/-- Reads the beginning of a class behind its bracket: the sign of negation, hyphens, and a closing
bracket that stands for itself because nothing precedes it. Gives the items latest first. -/
def classStart (verbose : Bool) (cs : List Char) : Reading (Bool × List ClassTree) :=
  let cs := blanks verbose cs
  let (negated, cs) := match cs with
    | '^' :: cs => (true, blanks verbose cs)
    | cs => (false, cs)
  match leadingHyphens verbose cs.length [] cs with
  | .error e => .error e
  | .ok ([], ']' :: cs) =>
    match blanks verbose cs with
    | [] => .error .classUnclosed
    | cs => .ok ((negated, [.literal ⟨']', false⟩]), cs)
  | .ok (items, cs) => .ok ((negated, items), cs)

def asciiClass? (name : String) : Option AsciiClass :=
  [("alnum", AsciiClass.alnum), ("alpha", .alpha), ("ascii", .ascii), ("blank", .blank),
    ("cntrl", .cntrl), ("digit", .digit), ("graph", .graph), ("lower", .lower), ("print", .print),
    ("punct", .punct), ("space", .space), ("upper", .upper), ("word", .word),
    ("xdigit", .xdigit)].lookup name

/-- Reads a named ASCII class behind its bracket, if there is one. -/
def asciiClass (cs : List Char) : Option (ClassTree × List Char) :=
  match cs with
  | ':' :: cs =>
    let (negated, cs) := match cs with
      | '^' :: cs => (true, cs)
      | cs => (false, cs)
    let (name, rest) := cs.span (· != ':')
    match rest with
    | ':' :: ']' :: rest =>
      (asciiClass? (String.ofList name)).map fun c => (.ascii negated c, rest)
    | _ => none
  | _ => none

/-- Reads one character or escape of a class. -/
def classAtom (verbose : Bool) : List Char → Reading Tree
  | [] => .error .classUnclosed
  | '\\' :: cs => escape verbose cs
  | c :: cs => .ok (.literal ⟨c, false⟩, cs)

/-- What an atom stands for in a class. -/
def classItem : Tree → Except SyntaxError ClassTree
  | .literal l => .ok (.literal l)
  | .shorthand negated c => .ok (.shorthand negated c)
  | .property negated q => .ok (.property negated q)
  | _ => .error .classEscapeInvalid

/-- What an atom stands for at the end of a range. -/
def rangeEnd : Tree → Except SyntaxError Literal
  | .literal l => .ok l
  | _ => .error .classRangeLiteral

/-- Reads an atom of a class, or a range between two of them. -/
def classRange (verbose : Bool) (cs : List Char) :
    Except SyntaxError (ClassTree × List Char) := do
  let (first, cs) ← classAtom verbose cs
  match blanks verbose cs with
  | [] => .error .classUnclosed
  | c :: cs =>
    let next := peek verbose cs
    if c != '-' || next = some ']' || next = some '-' then
      return (← classItem first, c :: cs)
    else
      match blanks verbose cs with
      | [] => .error .classUnclosed
      | cs =>
        let (second, cs) ← classAtom verbose cs
        let lo ← rangeEnd first
        let hi ← rangeEnd second
        if lo.char ≤ hi.char then return (.range lo hi, cs) else .error .classRangeInvalid

/-- Joins the operation on top of the stack, if there is one, with its right side. -/
def closeOperation (stack : List ClassFrame) (right : ClassTree) : ClassTree × List ClassFrame :=
  match stack with
  | .operation o left :: stack => (.operation o left right, stack)
  | stack => (right, stack)

/-- Reads the content of a class, with the items read so far latest first. -/
def classContent (verbose : Bool) :
    Nat → List ClassFrame → List ClassTree → List Char → Reading Tree
  | 0, _, _, _ => .error .classUnclosed
  | bound + 1, stack, items, cs =>
    let operate := fun (o : SetOperation) (cs : List Char) =>
      let (left, stack) := closeOperation stack (ClassTree.ofItems items.reverse)
      classContent verbose bound (.operation o left :: stack) [] cs
    match blanks verbose cs with
    | [] => .error .classUnclosed
    | '[' :: cs =>
      match asciiClass cs with
      | some (item, rest) => classContent verbose bound stack (item :: items) rest
      | none =>
        match classStart verbose cs with
        | .error e => .error e
        | .ok ((negated, inner), rest) =>
          classContent verbose bound (.opened negated items :: stack) inner rest
    | ']' :: cs =>
      match closeOperation stack (ClassTree.ofItems items.reverse) with
      | (content, [.opened negated _]) => .ok (.bracket negated content, cs)
      | (content, .opened negated outer :: stack) =>
        classContent verbose bound stack (.bracket negated content :: outer) cs
      | _ => .error .classUnclosed
    | '&' :: '&' :: cs => operate .intersection cs
    | '-' :: '-' :: cs => operate .difference cs
    | '~' :: '~' :: cs => operate .symmetricDifference cs
    | cs =>
      match classRange verbose cs with
      | .error e => .error e
      | .ok (item, rest) => classContent verbose bound stack (item :: items) rest

/-- Reads a class behind its opening bracket. -/
def bracket (verbose : Bool) (cs : List Char) : Reading Tree :=
  match classStart verbose cs with
  | .error e => .error e
  | .ok ((negated, items), rest) =>
    classContent verbose (rest.length + 1) [.opened negated []] items rest

/-! ### Repetitions -/

/-- Reads digits onto a number. -/
def digits (verbose : Bool) : Nat → Option Nat → List Char → Option Nat × List Char
  | 0, n, cs => (n, cs)
  | _, n, [] => (n, [])
  | bound + 1, n, c :: cs =>
    if c.isDigit then
      digits verbose bound (some (n.getD 0 * 10 + (c.toNat - 48))) (blanks verbose cs)
    else (n, c :: cs)

/-- Reads a number with blanks around it, which must fit into 32 bits. -/
def decimal (verbose : Bool) (cs : List Char) : Except SyntaxError Nat × List Char :=
  let cs := cs.dropWhile Unicode.isSpace
  let (n, rest) := digits verbose cs.length none cs
  let rest := if (rest.head?.any Unicode.isSpace) then
    blanks verbose (rest.dropWhile Unicode.isSpace) else rest
  match n with
  | none => (.error .countEmpty, rest)
  | some n => (if n < UInt32.size then .ok n else .error .countInvalid, rest)

/-- Reads the bounds of a counted repetition behind its opening brace, and the question mark that
makes it lazy. -/
def counts (verbose : Bool) (cs : List Char) :
    Except SyntaxError ((Nat × Option Nat × Bool) × List Char) := do
  let cs := blanks verbose cs
  if cs.isEmpty then .error .countUnclosed
  else
    let (low, cs) := decimal verbose cs
    let ((min, max), cs) ← match cs with
      | [] => .error .countUnclosed
      | ',' :: cs =>
        match blanks verbose cs with
        | [] => .error .countUnclosed
        | '\x7d' :: cs => do
          let min ← low
          pure ((min, none), '\x7d' :: cs)
        | cs => do
          let min ← low
          let (high, cs) := decimal verbose cs
          let max ← high
          pure ((min, some max), cs)
      | cs => do
        let n ← low
        pure ((n, some n), cs)
    match cs with
    | '\x7d' :: cs =>
      let (greedy, cs) := match blanks verbose cs with
        | '?' :: cs => (false, cs)
        | cs => (true, cs)
      if max.any (· < min) then .error .countOutOfOrder else return ((min, max, greedy), cs)
    | _ => .error .countUnclosed

/-! ### Groups -/

def flagOf? : Char → Option Flag
  | 'i' => some .ignoreCase
  | 'm' => some .multiLine
  | 's' => some .dotAll
  | 'U' => some .swapGreed
  | 'u' => some .unicode
  | 'R' => some .crlf
  | 'x' => some .verbose
  | _ => none

/-- Reads switches up to a colon or a closing parenthesis, which is left to be read. `negated` is
set once the sign of negation has been read, and `dangling` if it was read last. -/
def flagChange (negated dangling : Bool) (change : FlagChange) : List Char → Reading FlagChange
  | [] => .error .flagsIncomplete
  | c :: cs =>
    if c = ':' || c = ')' then
      if dangling then .error .flagDanglingNegation else .ok (change, c :: cs)
    else if c = '-' then
      if negated then .error .flagRepeatedNegation else flagChange true true change cs
    else match flagOf? c with
      | none => .error .flagUnrecognized
      | some flag =>
        if (change.state? flag).isSome then .error .flagDuplicate
        else if negated then
          flagChange negated false { change with off := change.off ++ [flag] } cs
        else flagChange negated false { change with on := change.on ++ [flag] } cs

/-- Characters of a group name; fewer of them may come first. -/
def isNameChar (first : Bool) (c : Char) : Bool :=
  c = '_' || if first then Unicode.isAlphabetic c
    else c = '.' || c = '[' || c = ']' || Unicode.isAlphanumeric c

/-- Reads a group name up to its closing angle bracket. -/
def groupName : List Char → List Char → Reading String
  | _, [] => .error .groupNameIncomplete
  | name, c :: cs =>
    if c = '>' then
      if name.isEmpty then .error .groupNameEmpty else .ok (String.ofList name.reverse, cs)
    else if isNameChar name.isEmpty c then groupName (c :: name) cs
    else .error .groupNameInvalid

end Reading

/-- An open group: what was read before it on its level, and how it ends. -/
structure Frame where
  branches : List Tree
  items : List Tree
  kind : GroupKind
  verbose : Bool

/-- The reader's state. Lists are kept latest first. -/
structure Reader where
  stack : List Frame
  /-- The finished branches of the innermost group. -/
  branches : List Tree
  /-- The items of the branch being read. -/
  items : List Tree
  verbose : Bool
  /-- The index of the next group. -/
  nextGroup : Nat
  names : List String

namespace Reader

def initial : Reader := ⟨[], [], [], false, 1, []⟩

def push (r : Reader) (t : Tree) : Reader := { r with items := t :: r.items }

/-- What the innermost group holds. -/
def content (r : Reader) : Tree :=
  let last := Tree.ofSequence r.items.reverse
  Tree.ofBranches (r.branches.reverse ++ [last])

/-- Opens a group. -/
def enter (r : Reader) (kind : GroupKind) (verbose : Bool) : Reader :=
  { r with
    stack := ⟨r.branches, r.items, kind, r.verbose⟩ :: r.stack
    branches := []
    items := []
    verbose := verbose }

/-- Closes the innermost group. -/
def leave (r : Reader) : Except SyntaxError Reader :=
  match r.stack with
  | [] => .error .groupUnopened
  | f :: stack =>
    .ok { r with
      stack := stack
      branches := f.branches
      items := .group f.kind r.content :: f.items
      verbose := f.verbose }

/-- Begins a new branch. -/
def branch (r : Reader) : Reader :=
  { r with branches := Tree.ofSequence r.items.reverse :: r.branches, items := [] }

/-- Repeats the last item. -/
def repeatLast (r : Reader) (min : Nat) (max : Option Nat) (greedy : Bool) :
    Except SyntaxError Reader :=
  match r.items with
  | [] | .flags _ :: _ => .error .repetitionMissing
  | t :: items => .ok { r with items := .rep t min max greedy :: items }

/-- Opens a group that remembers what it matched. -/
def enterCapture (r : Reader) (name : Option String) : Except SyntaxError Reader :=
  if name.any r.names.contains then .error .groupNameDuplicate
  else .ok (({ r with
    nextGroup := r.nextGroup + 1
    names := name.toList ++ r.names } : Reader).enter (.capture r.nextGroup name) r.verbose)

/-- Reads what follows an opening parenthesis. -/
def openGroup (r : Reader) (cs : List Char) : Except SyntaxError (Reader × List Char) :=
  let named := fun (cs : List Char) => show Except SyntaxError (Reader × List Char) from do
    let (name, rest) ← Reading.groupName [] cs
    let r ← r.enterCapture (some name)
    return (r, rest)
  match Reading.blanks r.verbose cs with
  | '?' :: '=' :: _ | '?' :: '!' :: _ => .error .lookAround
  | '?' :: '<' :: '=' :: _ | '?' :: '<' :: '!' :: _ => .error .lookAround
  | '?' :: 'P' :: '<' :: cs => named cs
  | '?' :: '<' :: cs => named cs
  | ['?'] => .error .groupUnclosed
  | '?' :: cs => do
    let (change, rest) ← Reading.flagChange false false ⟨[], []⟩ cs
    let verbose := (change.state? .verbose).getD r.verbose
    match rest with
    | ')' :: rest =>
      if change = ⟨[], []⟩ then .error .repetitionMissing
      else return ({ r.push (.flags change) with verbose := verbose }, rest)
    | _ :: rest => return (r.enter (.plain change) verbose, rest)
    | [] => .error .flagsIncomplete
  | cs => do
    let r ← r.enterCapture none
    return (r, cs)

/-- Repeats the last item as an operator of one character says; a question mark behind it makes the
repetition lazy. -/
def uncounted (r : Reader) (min : Nat) (max : Option Nat) (cs : List Char) : Reading Reader :=
  match cs with
  | '?' :: cs => (r.repeatLast min max false).map fun r => (r, cs)
  | cs => (r.repeatLast min max true).map fun r => (r, cs)

/-- Pushes what was read. -/
def pushRead (r : Reader) (read : Reading Tree) : Reading Reader :=
  read.map fun (t, rest) => (r.push t, rest)

/-- Reads one item that begins with the character `c`. -/
def step (r : Reader) (c : Char) (cs : List Char) : Except SyntaxError (Reader × List Char) :=
  match c with
  | '(' => r.openGroup cs
  | ')' => r.leave.map fun r => (r, cs)
  | '|' => .ok (r.branch, cs)
  | '[' => r.pushRead (Reading.bracket r.verbose cs)
  | '?' => r.uncounted 0 (some 1) cs
  | '*' => r.uncounted 0 none cs
  | '+' => r.uncounted 1 none cs
  | '\x7b' =>
    match r.items with
    | [] | .flags _ :: _ => .error .repetitionMissing
    | _ => do
      let ((min, max, greedy), rest) ← Reading.counts r.verbose cs
      let r ← r.repeatLast min max greedy
      return (r, rest)
  | '\\' => r.pushRead (Reading.escape r.verbose cs)
  | '.' => .ok (r.push .dot, cs)
  | '^' => .ok (r.push (.anchor .lineStart), cs)
  | '$' => .ok (r.push (.anchor .lineEnd), cs)
  | c => .ok (r.push (.literal ⟨c, false⟩), cs)

/-- Reads items to the end of the pattern. -/
def run : Nat → Reader → List Char → Except SyntaxError Reader
  | 0, r, _ => .ok r
  | bound + 1, r, cs =>
    match Reading.blanks r.verbose cs with
    | [] => .ok r
    | c :: cs =>
      match r.step c cs with
      | .ok (r, rest) => run bound r rest
      | .error e => .error e

/-- The tree that was read, if no group is left open. -/
def finish (r : Reader) : Except SyntaxError Tree :=
  if r.stack.isEmpty then .ok r.content else .error .groupUnclosed

end Reader

/-- The deepest nesting that a pattern may have. -/
def nestLimit : Nat := 250

/-- Reads a pattern. -/
def Tree.parse (pattern : List Char) : Except SyntaxError Tree := do
  let r ← Reader.run pattern.length Reader.initial pattern
  let t ← r.finish
  if t.depth ≤ nestLimit then return t else .error .nestingTooDeep

end Ripple.Regex
