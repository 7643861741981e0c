import Ripple.Unicode.Age
import Ripple.Unicode.Folding
import Ripple.Unicode.Listed
import Ripple.Unicode.Recent
import Ripple.Unicode.Script

/-!
Predicates on characters. Each one decides ASCII characters by their code and asks the tables only
for the others. Blanks, digits and word characters are those of patterns; the other predicates are
about plain text and know the most recent characters too.
-/

namespace Ripple.Unicode

/-- Blanks and line ends of every script. -/
def isSpace (c : Char) : Bool :=
  if c.toNat < 128 then c = ' ' || (9 ≤ c.toNat && c.toNat ≤ 13)
  else Listed.whiteSpace.holds c.toNat

/-- Decimal digits of every script. -/
def isDigit (c : Char) : Bool :=
  if c.toNat < 128 then c.isDigit else Category.of c = .nd

/-- Whether a character beyond ASCII of the category `g` is a letter, a letter-like number or a sign
that stands for letters. -/
def isAlphabeticAs (g : Category) (c : Char) : Bool :=
  match g with
  | .lu | .ll | .lt | .lm | .lo | .nl => true
  | _ => Listed.otherAlphabetic.holds c.toNat

/-- Characters of a word: alphabetic ones, marks, digits, connectors and joiners. -/
def isWord (c : Char) : Bool :=
  if c.toNat < 128 then c.isAlphanum || c = '_' else Listed.word.holds c.toNat

/-- Upper-case letters and the other characters that count as such. -/
def isUppercase (c : Char) : Bool :=
  if c.toNat < 128 then c.isUpper
  else Recent.categoryOf c = .lu || Listed.otherUppercase.holds c.toNat

/-- Letters, letter-like numbers and signs that stand for letters. -/
def isAlphabetic (c : Char) : Bool :=
  if c.toNat < 128 then c.isAlpha
  else isAlphabeticAs (Recent.categoryOf c) c || Recent.otherAlphabetic.holds c.toNat

/-- Alphabetic characters and numbers of any kind. -/
def isAlphanumeric (c : Char) : Bool :=
  if c.toNat < 128 then c.isAlphanum
  else isAlphabetic c || match Recent.categoryOf c with
    | .nd | .nl | .no => true
    | _ => false

/-- Marks that extend the character before them. A letter is no mark. -/
def isGraphemeExtend (c : Char) : Bool :=
  if c.toNat < 128 then false
  else match Recent.categoryOf c with
    | .mn | .me => true
    | .lm => false
    | _ => Listed.otherGraphemeExtend.holds c.toNat

/-- Characters with a visible form of their own, and the space. -/
def isPrintable (c : Char) : Bool :=
  if c.toNat < 128 then 32 ≤ c.toNat && c.toNat < 127
  else match Recent.categoryOf c with
    | .cc | .cf | .cs | .co | .cn | .zl | .zp | .zs => false
    | _ => !Listed.otherDefaultIgnorable.holds c.toNat

end Ripple.Unicode
