import Ripple.Toml.Scalar

/-!
Strings of TOML: between double quotes with escapes, between single quotes without, and both also
over several lines.
-/

namespace Ripple.Toml

/-- Characters that may stand in a comment or a string. -/
def isPlain (c : Char) : Bool := c = '\t' || (' ' ≤ c && c ≠ '\x7f')

/-- The character with a code given by exactly `count` hexadecimal digits. -/
def codeEscape (count : Nat) (cs : List Char) : Except Error (Char × List Char) :=
  let digits := cs.take count
  let code := numberOf 16 digits
  if digits.length = count ∧ digits.all isHexDigit ∧ code.isValidChar then
    .ok (Char.ofNat code, cs.drop count)
  else .error .escapeInvalid

/-- Reads an escape behind its backslash. -/
def escape : List Char → Except Error (Char × List Char)
  | 'b' :: rest => .ok ('\x08', rest)
  | 't' :: rest => .ok ('\t', rest)
  | 'n' :: rest => .ok ('\n', rest)
  | 'f' :: rest => .ok ('\x0c', rest)
  | 'r' :: rest => .ok ('\r', rest)
  | '"' :: rest => .ok ('"', rest)
  | '\\' :: rest => .ok ('\\', rest)
  | 'u' :: rest => codeEscape 4 rest
  | 'U' :: rest => codeEscape 8 rest
  | _ => .error .escapeInvalid

/-- A text and what follows it. -/
abbrev TextRead := Except Error (String × List Char)

/-- The text of characters in reverse. -/
def finish (taken rest : List Char) : TextRead := .ok (String.ofList taken.reverse, rest)

/-- Reads up to a double quote. The first argument bounds the number of characters. -/
def basicText : Nat → List Char → List Char → TextRead
  | 0, _, _ | _, [], _ => .error .textUnfinished
  | bound + 1, c :: rest, taken =>
    if c = '"' then finish taken rest
    else if c = '\\' then
      match escape rest with
      | .ok (e, rest) => basicText bound rest (e :: taken)
      | .error e => .error e
    else if isPlain c then basicText bound rest (c :: taken)
    else .error .characterInvalid

/-- Reads up to a single quote. -/
def literalText : List Char → List Char → TextRead
  | [], _ => .error .textUnfinished
  | c :: rest, taken =>
    if c = '\'' then finish taken rest
    else if isPlain c then literalText rest (c :: taken)
    else .error .characterInvalid

/-- A line end at the beginning of a text, and what follows it. -/
def newline? : List Char → Option (List Char)
  | '\n' :: rest => some rest
  | '\r' :: '\n' :: rest => some rest
  | _ => none

def isBlank (c : Char) : Bool := c = ' ' || c = '\t'

/-- Passes over blanks and line ends. -/
def skipLayout : List Char → List Char
  | ' ' :: rest => skipLayout rest
  | '\t' :: rest => skipLayout rest
  | '\n' :: rest => skipLayout rest
  | '\r' :: '\n' :: rest => skipLayout rest
  | cs => cs

/-- Reads up to three quotes in a row. One or two more of them right before these belong to the
text. The first argument bounds the number of characters. -/
def longText (quote : Char) (escapes : Bool) : Nat → List Char → List Char → TextRead
  | 0, _, _ | _, [], _ => .error .textUnfinished
  | bound + 1, c :: rest, taken =>
    if c = quote then
      let run := (rest.takeWhile (· = quote)).length + 1
      if run < 3 then longText quote escapes bound rest (c :: taken)
      else
        let extra := Nat.min (run - 3) 2
        finish (List.replicate extra quote ++ taken) (rest.drop (extra + 2))
    else if c = '\\' && escapes then
      match newline? (rest.dropWhile isBlank) with
      | some rest => longText quote escapes bound (skipLayout rest) taken
      | none =>
        match escape rest with
        | .ok (e, rest) => longText quote escapes bound rest (e :: taken)
        | .error e => .error e
    else
      match newline? (c :: rest) with
      | some rest => longText quote escapes bound rest ('\n' :: taken)
      | none =>
        if isPlain c then longText quote escapes bound rest (c :: taken)
        else .error .characterInvalid

/-- Reads a string over several lines behind its opening quotes. A line end right behind these is
dropped. -/
def openLongText (quote : Char) (escapes : Bool) (cs : List Char) : TextRead :=
  let body := (newline? cs).getD cs
  longText quote escapes body.length body []

/-- Reads a string on one line. -/
def shortText : List Char → Option TextRead
  | '"' :: rest => some (basicText rest.length rest [])
  | '\'' :: rest => some (literalText rest [])
  | _ => none

/-- Reads a string of any kind, if there is one. -/
def anyText : List Char → Option TextRead
  | '"' :: '"' :: '"' :: rest => some (openLongText '"' true rest)
  | '\'' :: '\'' :: '\'' :: rest => some (openLongText '\'' false rest)
  | cs => shortText cs

end Ripple.Toml
