import Ripple.Toml.Text

/-!
Documents in TOML. A document is read line by line; each header says which table the following keys
belong to, and the tables grow in one tree.
-/

namespace Ripple.Toml

/-- The entries of a table. -/
abbrev Entries := List (String × Toml)

/-- Replaces or adds an entry. -/
def setEntry (key : String) (value : Toml) : Entries → Entries
  | [] => [(key, value)]
  | (k, old) :: rest =>
    if k = key then (key, value) :: rest else (k, old) :: setEntry key value rest

/-- Changes the last table of an array. -/
def onLast (f : Entries → Except Error Entries) : List Toml → Except Error (List Toml)
  | [] => .ok []
  | [.table origin entries] => do return [.table origin (← f entries)]
  | item :: rest => do return item :: (← onLast f rest)

/-- Puts a value into a table, under a key with the given tables on the way to it. Those that are
missing are made; those that have a header of their own are closed to this. -/
def insertDotted (key : String) (value : Toml) : List String → Entries → Except Error Entries
  | [], entries =>
    if (entries.lookup key).isSome then .error (.keyDuplicate key)
    else .ok (entries ++ [(key, value)])
  | k :: path, entries =>
    match entries.lookup k with
    | none => do return entries ++ [(k, .table .dotted (← insertDotted key value path []))]
    | some (.table .dotted inner) => do
      return setEntry k (.table .dotted (← insertDotted key value path inner)) entries
    | some (.table .implied inner) => do
      if path.isEmpty then .error (.keyDuplicate k)
      else return setEntry k (.table .implied (← insertDotted key value path inner)) entries
    | some (.table .header _) => .error (.keyDuplicate k)
    | some (.tables items) => do
      if path.isEmpty then .error (.keyDuplicate k)
      else return setEntry k (.tables (← onLast (insertDotted key value path) items)) entries
    | some _ => .error (.notATable k)

/-- Changes what a header names. Tables on the way to it that are missing are made; an array of
tables stands for its last one. -/
def underHeader (leaf : Option Toml → Except Error Toml) :
    List String → Entries → Except Error Entries
  | [], entries => .ok entries
  | [k], entries => do return setEntry k (← leaf (entries.lookup k)) entries
  | k :: path, entries =>
    match entries.lookup k with
    | none => do return setEntry k (.table .implied (← underHeader leaf path [])) entries
    | some (.table .inline _) => .error (.notATable k)
    | some (.table origin inner) => do
      return setEntry k (.table origin (← underHeader leaf path inner)) entries
    | some (.tables items) => do
      return setEntry k (.tables (← onLast (underHeader leaf path) items)) entries
    | some _ => .error (.notATable k)

/-- Opens a table by a header. Only one that stood on the way to another may be there already. -/
def openTable (key : String) : Option Toml → Except Error Toml
  | none => .ok (.table .header [])
  | some (.table .implied entries) => .ok (.table .header entries)
  | some _ => .error (.keyDuplicate key)

/-- Opens a further table of an array by a header. -/
def openElement (key : String) : Option Toml → Except Error Toml
  | none => .ok (.tables [.table .header []])
  | some (.tables items) => .ok (.tables (items ++ [.table .header []]))
  | some _ => .error (.keyDuplicate key)

/-- Changes the entries of a table that a header has opened. -/
def inOpened (f : Entries → Except Error Entries) : Option Toml → Except Error Toml
  | some (.table origin entries) => do return .table origin (← f entries)
  | some (.tables items) => do return .tables (← onLast f items)
  | other => .ok (other.getD (.table .header []))

/-- Changes the entries of the table with the given header; without a header, those of the
document. -/
def inTable (header : List String) (f : Entries → Except Error Entries) (root : Entries) :
    Except Error Entries :=
  if header.isEmpty then f root else underHeader (inOpened f) header root

def skipBlanks (cs : List Char) : List Char := cs.dropWhile isBlank

/-- Passes over a comment, if there is one, up to the end of its line. -/
def skipComment (cs : List Char) : Except Error (List Char) :=
  match cs with
  | '#' :: rest =>
    let after := rest.dropWhile isPlain
    if after.isEmpty || (newline? after).isSome then .ok after else .error .characterInvalid
  | cs => .ok cs

/-- Passes over the rest of a line, which holds at most a comment. -/
def endLine (cs : List Char) : Except Error (List Char) :=
  match skipComment (skipBlanks cs) with
  | .error e => .error e
  | .ok [] => .ok []
  | .ok cs =>
    match newline? cs with
    | some rest => .ok rest
    | none => .error .lineEndExpected

/-- Passes over blanks, line ends and comments. The first argument bounds the number of
characters. -/
def skipTrivia : Nat → List Char → Except Error (List Char)
  | 0, cs => .ok cs
  | bound + 1, cs =>
    match cs with
    | [] => .ok []
    | '#' :: _ =>
      match skipComment cs with
      | .ok rest => skipTrivia bound rest
      | .error e => .error e
    | c :: rest =>
      if isBlank c then skipTrivia bound rest
      else
        match newline? cs with
        | some rest => skipTrivia bound rest
        | none => .ok cs

def isBare (c : Char) : Bool := c.isAlphanum || c = '-' || c = '_'

/-- Reads one part of a key. -/
def keyPart (cs : List Char) : TextRead :=
  match shortText cs with
  | some read => read
  | none =>
    let part := cs.takeWhile isBare
    if part.isEmpty then .error .keyExpected
    else .ok (String.ofList part, cs.dropWhile isBare)

/-- Reads parts of a key with dots between them, and the blanks around these. -/
def keyParts : Nat → List Char → Except Error (List String × List Char)
  | 0, _ => .error .keyExpected
  | bound + 1, cs => do
    let (part, rest) ← keyPart (skipBlanks cs)
    match skipBlanks rest with
    | '.' :: rest => do
      let (parts, rest) ← keyParts bound rest
      return (part :: parts, rest)
    | rest => return ([part], rest)

/-- How deep values may be nested, and how long keys may be. -/
def maxDepth : Nat := 80

/-- Reads a key. -/
def readKey (cs : List Char) : Except Error (List String × List Char) := do
  let (parts, rest) ← keyParts (cs.length + 1) cs
  if maxDepth ≤ parts.length then .error .nestingTooDeep else return (parts, rest)

/-- Reads a key and the equals sign behind it. -/
def readKeySign (cs : List Char) : Except Error (List String × List Char) := do
  let (parts, rest) ← readKey cs
  match rest with
  | '=' :: rest => return (parts, skipBlanks rest)
  | _ => .error .separatorExpected

/-- Characters of a number, a truth value, a date or a time. -/
def isScalarChar (c : Char) : Bool :=
  c.isAlphanum || c = '+' || c = '-' || c = '.' || c = '_' || c = ':'

/-- Reads a value that is neither a string nor made of others. A blank may stand between a date and
a time. -/
def readScalar (cs : List Char) : Except Error (Toml × List Char) :=
  let spelled := cs.takeWhile isScalarChar
  let rest := cs.dropWhile isScalarChar
  let time := (rest.drop 1).takeWhile isScalarChar
  if spelled.isEmpty then .error .valueExpected
  else if isDate spelled && rest.head? = some ' ' && isTimeWithOffset time then
    .ok (.moment, (rest.drop 1).dropWhile isScalarChar)
  else
    match scalar? spelled with
    | some value => .ok (value, rest)
    | none => .error (.literalInvalid (String.ofList spelled))

/-- Puts a value under a key with dots into a table. -/
def insertKey (parts : List String) (value : Toml) (entries : Entries) : Except Error Entries :=
  match parts.getLast? with
  | some key => insertDotted key value parts.dropLast entries
  | none => .error .keyExpected

mutual

/-- Reads a value at the given depth of nesting. The first argument bounds the number of steps. -/
def readValue : Nat → Nat → List Char → Except Error (Toml × List Char)
  | 0, _, _ => .error .nestingTooDeep
  | bound + 1, depth, cs =>
    match anyText cs with
    | some (.ok (value, rest)) => .ok (.text value, rest)
    | some (.error e) => .error e
    | none =>
      match cs with
      | '[' :: rest =>
        if maxDepth ≤ depth + 1 then .error .nestingTooDeep
        else readItems bound (depth + 1) rest []
      | '\x7b' :: rest =>
        if maxDepth ≤ depth + 1 then .error .nestingTooDeep
        else
          match skipBlanks rest with
          | '\x7d' :: rest => .ok (.table .inline [], rest)
          | rest => readFields bound (depth + 1) rest []
      | cs => readScalar cs

/-- Reads the items of an array up to its closing bracket. Those before are in reverse. -/
def readItems : Nat → Nat → List Char → List Toml → Except Error (Toml × List Char)
  | 0, _, _, _ => .error .nestingTooDeep
  | bound + 1, depth, cs, items => do
    match ← skipTrivia cs.length cs with
    | ']' :: rest => return (.array items.reverse, rest)
    | cs =>
      let (item, rest) ← readValue bound depth cs
      match ← skipTrivia rest.length rest with
      | ',' :: rest => readItems bound depth rest (item :: items)
      | ']' :: rest => return (.array (item :: items).reverse, rest)
      | _ => .error .bracketExpected

/-- Reads the fields of a table up to its closing brace. -/
def readFields : Nat → Nat → List Char → Entries → Except Error (Toml × List Char)
  | 0, _, _, _ => .error .nestingTooDeep
  | bound + 1, depth, cs, entries => do
    let (parts, rest) ← readKeySign cs
    let (value, rest) ← readValue bound depth rest
    let entries ← insertKey parts value entries
    match skipBlanks rest with
    | ',' :: rest => readFields bound depth rest entries
    | '\x7d' :: rest => return (.table .inline entries, rest)
    | _ => .error .bracketExpected

end

/-- Reads lines into the tree, where keys belong to the table with the given header. The first
argument bounds the number of lines. -/
def readLines : Nat → List String → Entries → List Char → Except Error Entries
  | 0, _, root, _ => .ok root
  | bound + 1, header, root, cs => do
    match skipBlanks cs with
    | [] => return root
    | '[' :: '[' :: rest =>
      let (parts, rest) ← readKey rest
      match rest with
      | ']' :: ']' :: rest =>
        let root ← underHeader (openElement (parts.getLast?.getD "")) parts root
        readLines bound parts root (← endLine rest)
      | _ => .error .bracketExpected
    | '[' :: rest =>
      let (parts, rest) ← readKey rest
      match rest with
      | ']' :: rest =>
        let root ← underHeader (openTable (parts.getLast?.getD "")) parts root
        readLines bound parts root (← endLine rest)
      | _ => .error .bracketExpected
    | c :: rest =>
      if c = '#' || (newline? (c :: rest)).isSome then
        readLines bound header root (← endLine (c :: rest))
      else
        let (parts, rest) ← readKeySign (c :: rest)
        let (value, rest) ← readValue (2 * rest.length + 2) 0 rest
        let root ← inTable header (insertKey parts value) root
        readLines bound header root (← endLine rest)

/-- Reads a document. A byte-order mark at its beginning is dropped. -/
def parse (text : String) : Except Error Toml := do
  let cs := match text.toList with
    | '\ufeff' :: rest => rest
    | cs => cs
  return .table .header (← readLines (cs.length + 1) [] [] cs)

end Ripple.Toml
