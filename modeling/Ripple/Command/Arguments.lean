import Ripple.Settings
import Ripple.Text.Basic

/-!
The words of a command line, which are strings of the operating system. Switches that concern every
command may stand before or behind its name; behind it they count more. Paths may be any strings; the
other values have to be texts.
-/

namespace Ripple

/-- An analysis that is asked for. -/
inductive Request where
  | dependencies (file : OsString) (root : Option OsString) (reverse : Bool)
  | impact (file : OsString) (root : OsString) (change : Option String)
  deriving DecidableEq, Repr

/-- A command line that has been understood. -/
structure Invocation where
  format : Option OutputFormat
  /-- The settings file to be used. -/
  config : Option OsString
  deadlineMs : Option Nat
  verbose : Bool
  request : Request
  deriving DecidableEq, Repr

namespace Command

/-- The reason for which no analysis is to be made. -/
inductive Stop where
  | misuse | help | version
  deriving DecidableEq, Repr

inductive Switch where
  | format | config | deadline | verbose | root | reverse | change | help | version
  deriving DecidableEq, Repr

namespace Switch

def long : Switch → String
  | format => "format"
  | config => "config"
  | deadline => "deadline-ms"
  | verbose => "verbose"
  | root => "root"
  | reverse => "reverse"
  | change => "change"
  | help => "help"
  | version => "version"

def short? : Switch → Option Char
  | format => some 'f'
  | config => some 'c'
  | verbose => some 'v'
  | root => some 'r'
  | help => some 'h'
  | version => some 'V'
  | deadline | reverse | change => none

def takesValue : Switch → Bool
  | format | config | deadline | root | change => true
  | verbose | reverse | help | version => false

end Switch

/-- Where switches stand: before the name of a command, or behind one. -/
inductive Scope where
  | top | dependencies | impact
  deriving DecidableEq, Repr

/-- The switches that are known in a place. -/
def Scope.switches : Scope → List Switch
  | top => [.format, .config, .deadline, .verbose, .help, .version]
  | dependencies => [.format, .config, .deadline, .verbose, .help, .root, .reverse]
  | impact => [.format, .config, .deadline, .verbose, .help, .root, .change]

/-- The form that a word names. -/
def formatNamed? (word : String) : Option OutputFormat :=
  match word with
  | "plain" => some .plain
  | "json" => some .json
  | "markdown" => some .markdown
  | "md" => some .markdown
  | _ => none

/-- An unsigned number of 64 bits, before which a plus sign may stand. -/
def natural? (word : String) : Option Nat :=
  let digits := match word.toList with
    | '+' :: rest => rest
    | cs => cs
  if digits.isEmpty || !digits.all Char.isDigit then none
  else
    let n := digits.foldl (fun n c => n * 10 + (c.toNat - 48)) 0
    if n < 18446744073709551616 then some n else none

/-- Whether a switch may have the given value. -/
def Switch.accepts : Switch → OsString → Bool
  | .format, word => (word.text?.bind formatNamed?).isSome
  | .config, word | .root, word => !word.bytes.isEmpty
  | .deadline, word => (word.text?.bind natural?).isSome
  | .change, word => word.text?.isSome
  | _, _ => true

/-- The switches that were given in one place, with their values. -/
abbrev Given := List (Switch × OsString)

/-- Adds a switch, which may be given once only. Those for help and the version act at once. -/
def Given.add (g : Given) (s : Switch) (value : OsString) : Except Stop Given :=
  match s with
  | .help => .error .help
  | .version => .error .version
  | s =>
    if (g.lookup s).isSome || !s.accepts value then .error .misuse
    else .ok ((s, value) :: g)

/-- The byte that switches begin with. -/
def hyphen : UInt8 := 45

/-- The byte between a switch and its value. -/
def equals : UInt8 := 61

/-- Whether a word is a switch. A single hyphen is none. -/
def isSwitch (word : OsString) : Bool := word.bytes.head? = some hyphen && 1 < word.bytes.length

/-- Reads a long switch behind its hyphens. The answer holds a switch whose value is yet to come. -/
def readLong (scope : Scope) (body : List UInt8) (g : Given) :
    Except Stop (Given × Option Switch) := do
  let name : OsString := ⟨body.takeWhile (· ≠ equals)⟩
  match scope.switches.find? fun s => s.long = name, body.dropWhile (· ≠ equals) with
  | none, _ => .error .misuse
  | some s, _ :: value =>
    if s.takesValue then return (← g.add s ⟨value⟩, none) else .error .misuse
  | some s, [] => if s.takesValue then return (g, some s) else return (← g.add s "", none)

/-- Reads short switches behind their hyphen. All but the last take no value; an equals sign before
the value of the last is dropped. -/
def readShort (scope : Scope) : List UInt8 → Given → Except Stop (Given × Option Switch)
  | [], g => .ok (g, none)
  | b :: rest, g =>
    match scope.switches.find? fun s => s.short?.map Char.toUInt8 = some b with
    | none => .error .misuse
    | some s =>
      if s.takesValue then
        match rest with
        | [] => .ok (g, some s)
        | c :: value => (fun g => (g, none)) <$> g.add s ⟨if c = equals then value else c :: value⟩
      else
        match g.add s "" with
        | .ok g => readShort scope rest g
        | .error e => .error e

/-- Reads a word that begins with a hyphen, and that may begin with two. -/
def readSwitch (scope : Scope) (word : OsString) (g : Given) :
    Except Stop (Given × Option Switch) :=
  match word.bytes with
  | _ :: b :: body => if b = hyphen then readLong scope body g else readShort scope (b :: body) g
  | _ => .error .misuse

/-- The switches of one place, and the words that remain. -/
structure Scanned where
  given : Given
  words : List OsString

/-- Reads the words of one place. At the top the first word that is no switch ends it; behind a
command there is room for one such word, and two hyphens end the switches. -/
def scan (scope : Scope) : List OsString → Given → List OsString → Except Stop Scanned
  | [], g, words => .ok ⟨g, words⟩
  | word :: rest, g, words =>
    if word = "--" then
      if scope = .top || 1 < words.length + rest.length then .error .misuse
      else .ok ⟨g, words ++ rest⟩
    else if isSwitch word then
      match readSwitch scope word g with
      | .error e => .error e
      | .ok (g, none) => scan scope rest g words
      | .ok (g, some s) =>
        match rest with
        | [] => .error .misuse
        | value :: rest =>
          if isSwitch value then .error .misuse
          else
            match g.add s value with
            | .ok g => scan scope rest g words
            | .error e => .error e
    else if scope = .top then .ok ⟨g, word :: rest⟩
    else if words.isEmpty then scan scope rest g [word]
    else .error .misuse

/-- What a command line asks for, with the switches before and behind the name of the command. -/
def invocation (scope : Scope) (file : OsString) (top sub : Given) : Invocation :=
  let value? (s : Switch) := (sub.lookup s).or (top.lookup s)
  let text? (s : Switch) := (value? s).bind OsString.text?
  { format := (text? .format).bind formatNamed?
    config := value? .config
    deadlineMs := (text? .deadline).bind natural?
    verbose := (value? .verbose).isSome
    request := match scope with
      | .impact => .impact file ((value? .root).getD ".") (text? .change)
      | _ => .dependencies file (value? .root) (value? .reverse).isSome }

/-- Reads what stands behind the name of a command. -/
def parseCommand (scope : Scope) (top : Given) (words : List OsString) :
    Except Stop Invocation := do
  let sub ← scan scope words [] []
  match sub.words with
  | [file] => if file.bytes.isEmpty then .error .misuse else return invocation scope file top sub.given
  | _ => .error .misuse

/-- What help may be asked for. -/
def helpTopics : List (List OsString) := [[], ["deps"], ["impact"], ["help"]]

/-- Understands a command line. -/
def parse (args : List OsString) : Except Stop Invocation := do
  let top ← scan .top args [] []
  match top.words with
  | [] => .error .misuse
  | command :: rest =>
    if command = "deps" then parseCommand .dependencies top.given rest
    else if command = "impact" then parseCommand .impact top.given rest
    else if command = "help" ∧ rest ∈ helpTopics then .error .help
    else .error .misuse

end Command

end Ripple
