import Ripple.Toml.Value

/-!
Numbers, truth values, dates and times of TOML, each given by the run of characters that spells it.
-/

namespace Ripple.Toml

/-- Digits in which underscores may stand between two digits. -/
def isGrouped (digit : Char → Bool) : List Char → Bool
  | [] => false
  | [c] => digit c
  | c :: '_' :: rest => digit c && isGrouped digit rest
  | c :: rest => digit c && isGrouped digit rest

def digitValue (c : Char) : Nat :=
  if c.isDigit then c.toNat - 48
  else if c.isUpper then c.toNat - 55
  else c.toNat - 87

/-- The number that digits spell in the given base. Underscores are passed over. -/
def numberOf (base : Nat) (cs : List Char) : Nat :=
  (cs.filter (· ≠ '_')).foldl (fun n c => n * base + digitValue c) 0

def isHexDigit (c : Char) : Bool :=
  c.isDigit || ('a' ≤ c && c ≤ 'f') || ('A' ≤ c && c ≤ 'F')

def isOctalDigit (c : Char) : Bool := '0' ≤ c && c ≤ '7'

def isBinaryDigit (c : Char) : Bool := c = '0' || c = '1'

/-- A sign and what follows it. -/
def splitSign : List Char → Bool × List Char
  | '-' :: rest => (true, rest)
  | '+' :: rest => (false, rest)
  | cs => (false, cs)

/-- Decimal digits without a leading zero. -/
def isDecimal (cs : List Char) : Bool :=
  isGrouped Char.isDigit cs && (cs.head? != some '0' || cs.length = 1)

/-- Integers have 64 bits, one of them for the sign. -/
def inRange (n : Int) : Option Int :=
  if -9223372036854775808 ≤ n ∧ n ≤ 9223372036854775807 then some n else none

def integer? (cs : List Char) : Option Int :=
  match cs with
  | '0' :: 'x' :: rest =>
    if isGrouped isHexDigit rest then inRange (numberOf 16 rest) else none
  | '0' :: 'o' :: rest =>
    if isGrouped isOctalDigit rest then inRange (numberOf 8 rest) else none
  | '0' :: 'b' :: rest =>
    if isGrouped isBinaryDigit rest then inRange (numberOf 2 rest) else none
  | cs =>
    let (negative, digits) := splitSign cs
    if isDecimal digits then
      inRange (if negative then -(numberOf 10 digits : Int) else numberOf 10 digits)
    else none

/-- The least number that is rounded to infinity, with 53 bits of precision. -/
def roundedToInfinity : Nat := Nat.pow 2 1024 - Nat.pow 2 970

/-- Whether digits times a power of ten are rounded to infinity. -/
def isInfinite (digits : Nat) (exponent : Int) : Bool :=
  if digits = 0 then false
  else if exponent < 0 then
    let shift := (-exponent).toNat
    if (Nat.toDigits 10 digits).length < shift then false
    else roundedToInfinity * Nat.pow 10 shift ≤ digits
  else if 400 < exponent then true
  else roundedToInfinity ≤ digits * Nat.pow 10 exponent.toNat

/-- The parts of a number with a point or an exponent: whether it has one of them, the digits before
and behind the point, and the exponent. -/
structure FloatParts where
  isFloat : Bool
  whole : List Char
  fraction : List Char
  exponent : Int

/-- Reads the exponent behind its letter. -/
def exponent? (cs : List Char) : Option Int :=
  let (negative, digits) := splitSign cs
  if isGrouped Char.isDigit digits then
    some (if negative then -(numberOf 10 digits : Int) else numberOf 10 digits)
  else none

/-- Cuts a number without a sign into its parts. -/
def floatParts? (cs : List Char) : Option FloatParts :=
  let isMark (c : Char) := c = 'e' || c = 'E'
  let mantissa := cs.takeWhile fun c => !isMark c
  let marked := cs.dropWhile fun c => !isMark c
  let whole := mantissa.takeWhile (· ≠ '.')
  let pointed := mantissa.dropWhile (· ≠ '.')
  let fraction := pointed.drop 1
  if !isDecimal whole || (!pointed.isEmpty && !isGrouped Char.isDigit fraction) then none
  else
    match marked with
    | [] => some ⟨!pointed.isEmpty, whole, fraction, 0⟩
    | _ :: rest => (exponent? rest).map fun e => ⟨true, whole, fraction, e⟩

/-- Whether characters spell a floating-point number. One that is too large is refused, unless it is
negative. -/
def isFloat (cs : List Char) : Bool :=
  let (negative, body) := splitSign cs
  if body = "inf".toList || body = "nan".toList then true
  else
    match floatParts? body with
    | none => false
    | some p =>
      let count := (p.fraction.filter (· ≠ '_')).length
      p.isFloat &&
        (negative || !isInfinite (numberOf 10 (p.whole ++ p.fraction)) (p.exponent - count))

/-- The number of days of a month. -/
def daysIn (year month : Nat) : Nat :=
  if month = 2 then
    if year % 4 = 0 ∧ (year % 100 ≠ 0 ∨ year % 400 = 0) then 29 else 28
  else if month = 4 || month = 6 || month = 9 || month = 11 then 30
  else 31

/-- Reads exactly `count` decimal digits. -/
def digits? (count : Nat) (cs : List Char) : Option (Nat × List Char) :=
  let digits := cs.take count
  if digits.length = count ∧ digits.all Char.isDigit then
    some (numberOf 10 digits, cs.drop count)
  else none

/-- Reads a character. -/
def expect? (c : Char) : List Char → Option (List Char)
  | d :: rest => if c = d then some rest else none
  | [] => none

/-- Reads a date and returns what follows it. -/
def date? (cs : List Char) : Option (List Char) := do
  let (year, cs) ← digits? 4 cs
  let cs ← expect? '-' cs
  let (month, cs) ← digits? 2 cs
  let cs ← expect? '-' cs
  let (day, cs) ← digits? 2 cs
  if 1 ≤ month ∧ month ≤ 12 ∧ 1 ≤ day ∧ day ≤ daysIn year month then some cs else none

/-- Reads the fraction of a second and returns what follows it. -/
def fraction? (cs : List Char) : Option (List Char) :=
  match cs with
  | '.' :: c :: rest => if c.isDigit then some (rest.dropWhile Char.isDigit) else none
  | '.' :: [] => none
  | cs => some cs

/-- Reads a time and returns what follows it. -/
def time? (cs : List Char) : Option (List Char) := do
  let (hour, cs) ← digits? 2 cs
  let cs ← expect? ':' cs
  let (minute, cs) ← digits? 2 cs
  let cs ← expect? ':' cs
  let (second, cs) ← digits? 2 cs
  if hour ≤ 23 ∧ minute ≤ 59 ∧ second ≤ 60 then fraction? cs else none

/-- Whether characters are a distance from universal time, or nothing. -/
def isOffset (cs : List Char) : Bool :=
  match cs with
  | [] | ['Z'] | ['z'] => true
  | sign :: rest =>
    (sign = '+' || sign = '-') &&
      match digits? 2 rest with
      | some (hour, ':' :: rest) =>
        match digits? 2 rest with
        | some (minute, []) => hour ≤ 23 && minute ≤ 59
        | _ => false
      | _ => false

/-- Whether characters spell a time with or without a distance. -/
def isTimeWithOffset (cs : List Char) : Bool := (time? cs).any isOffset

/-- Whether characters spell a date. -/
def isDate (cs : List Char) : Bool := date? cs = some []

/-- Whether characters spell a date, a time, or a date and a time with a letter between them. -/
def isMoment (cs : List Char) : Bool :=
  time? cs = some [] ||
    match date? cs with
    | some [] => true
    | some (c :: rest) => (c = 'T' || c = 't') && isTimeWithOffset rest
    | none => false

/-- The value that a run of characters spells. -/
def scalar? (cs : List Char) : Option Toml :=
  if cs = "true".toList then some (.boolean true)
  else if cs = "false".toList then some (.boolean false)
  else if isMoment cs then some .moment
  else if isFloat cs then some .float
  else (integer? cs).map .integer

end Ripple.Toml
