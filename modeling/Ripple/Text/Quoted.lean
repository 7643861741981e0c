import Ripple.Unicode.Property

/-!
Texts between double quotes, in which everything that has no visible form of its own is written by
an escape.
-/

namespace Ripple.Text

/-- A number in lower-case hexadecimal digits. -/
def hex (n : Nat) : String := String.ofList (Nat.toDigits 16 n)

/-- The written form of a character between double quotes. -/
def quotedChar (c : Char) : String :=
  match c with
  | '\x00' => "\\0"
  | '\t' => "\\t"
  | '\r' => "\\r"
  | '\n' => "\\n"
  | '\\' => "\\\\"
  | '"' => "\\\""
  | c =>
    if Unicode.isGraphemeExtend c || !Unicode.isPrintable c then
      "\\u\x7b" ++ hex c.toNat ++ "\x7d"
    else c.toString

/-- A text between double quotes. -/
def quoted (text : String) : String :=
  "\"" ++ String.join (text.toList.map quotedChar) ++ "\""

end Ripple.Text
