import Ripple.Text.Basic

/-!
Strings of the operating system, of which paths and the words of a command line are made. They are
any bytes. Most of them encode a text, but nothing makes sure of that, and what needs a text has to
ask for it.
-/

namespace Ripple

/-- A string of the operating system. -/
structure OsString where
  bytes : List UInt8
  deriving DecidableEq, Repr

namespace OsString

/-- The bytes of a text. -/
def ofText (text : String) : OsString := ⟨text.toUTF8.data.toList⟩

instance : Coe String OsString := ⟨ofText⟩

/-- The text that a string encodes, if it does encode one. -/
def text? (s : OsString) : Option String := String.fromUTF8? ⟨s.bytes.toArray⟩

instance : Append OsString := ⟨fun a b => ⟨a.bytes ++ b.bytes⟩⟩

/-- Strings are in the order of their bytes. -/
instance : LT OsString := ⟨fun a b => a.bytes < b.bytes⟩

instance (a b : OsString) : Decidable (a < b) := inferInstanceAs (Decidable (a.bytes < b.bytes))

instance : LE OsString := ⟨fun a b => ¬ b < a⟩

instance (a b : OsString) : Decidable (a ≤ b) := inferInstanceAs (Decidable (¬ b < a))

/-- What the first byte of a character says: the number of bytes that follow it, and the range of
the next one. -/
structure Lead where
  more : Nat
  low : UInt8
  high : UInt8

/-- The first bytes of characters that take more than one byte. -/
def lead? (b : UInt8) : Option Lead :=
  if b < 0xc2 then none
  else if b < 0xe0 then some ⟨1, 0x80, 0xbf⟩
  else if b = 0xe0 then some ⟨2, 0xa0, 0xbf⟩
  else if b = 0xed then some ⟨2, 0x80, 0x9f⟩
  else if b < 0xf0 then some ⟨2, 0x80, 0xbf⟩
  else if b = 0xf0 then some ⟨3, 0x90, 0xbf⟩
  else if b < 0xf4 then some ⟨3, 0x80, 0xbf⟩
  else if b = 0xf4 then some ⟨3, 0x80, 0x8f⟩
  else none

/-- The number of bytes, `more` of them at most, that can go on with a character. -/
def following : Nat → List UInt8 → Nat
  | 0, _ | _, [] => 0
  | more + 1, b :: rest => if 0x80 ≤ b ∧ b ≤ 0xbf then following more rest + 1 else 0

/-- The sign that stands for bytes that encode nothing. -/
def replacement : Char := '�'

/-- The character that begins with a byte, and how many of the other bytes it takes. Bytes that only
begin a character are replaced together. -/
def charAt (b : UInt8) (rest : List UInt8) : Char × Nat :=
  if b < 0x80 then (Char.ofNat b.toNat, 0)
  else
    match lead? b, rest with
    | some lead, next :: _ =>
      if lead.low ≤ next ∧ next ≤ lead.high then
        let taken := following lead.more rest
        let encoded := String.fromUTF8? ⟨(b :: rest.take taken).toArray⟩
        ((encoded.bind (·.toList.head?)).getD replacement, taken)
      else (replacement, 0)
    | _, _ => (replacement, 0)

/-- The characters that bytes encode, with a replacement for what encodes nothing. The first argument
counts the bytes of a character that are still to be passed over. -/
def lossyChars : Nat → List UInt8 → List Char
  | _, [] => []
  | skip + 1, _ :: rest => lossyChars skip rest
  | 0, b :: rest => (charAt b rest).1 :: lossyChars (charAt b rest).2 rest

/-- A string as it is shown. What encodes no text is replaced. -/
def display (s : OsString) : String := s.text?.getD (String.ofList (lossyChars 0 s.bytes))

end OsString

end Ripple
