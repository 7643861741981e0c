import Ripple.Unicode.Interval

/-!
Intervals of code points as byte sequences: a set of characters is, in UTF-8, a list of sequences of
byte ranges, in ascending order, such that a text of one character is in the set exactly if its
bytes lie in the ranges of one of the sequences.
-/

namespace Ripple.Encoding

/-- A range of byte values. -/
abbrev ByteRange := Nat × Nat

/-- The greatest parts of the code points within which all characters have encodings of one
length. -/
def lengthBlocks : Intervals :=
  [(0, 0x7F), (0x80, 0x7FF), (0x800, 0xD7FF), (0xE000, 0xFFFF), (0x10000, 0x10FFFF)]

/-- Divides an interval at multiples of the given powers of 64, so that within each part the bytes
of the encodings vary independently of each other. -/
def align : List Nat → Nat → Nat → Intervals
  | [], lo, hi => [(lo, hi)]
  | unit :: units, lo, hi =>
    if lo / unit = hi / unit then [(lo, hi)]
    else
      let (front, lo) :=
        if lo % unit = 0 then ([], lo)
        else ([(lo, lo - lo % unit + unit - 1)], lo - lo % unit + unit)
      let (back, stop) :=
        if hi % unit = unit - 1 then ([], hi + 1) else ([(hi - hi % unit, hi)], hi - hi % unit)
      let middle := if lo < stop then align units lo (stop - 1) else []
      front ++ middle ++ back

/-- The bytes of the encoding of a code point. -/
def bytes (x : Nat) : List Nat :=
  if x < 0x80 then [x]
  else if x < 0x800 then [0xC0 + x / 64, 0x80 + x % 64]
  else if x < 0x10000 then [0xE0 + x / 4096, 0x80 + x / 64 % 64, 0x80 + x % 64]
  else [0xF0 + x / 262144, 0x80 + x / 4096 % 64, 0x80 + x / 64 % 64, 0x80 + x % 64]

/-- The byte sequences of an interval. -/
def sequencesOf (i : Nat × Nat) : List (List ByteRange) :=
  lengthBlocks.flatMap fun block =>
    let lo := Nat.max block.1 i.1
    let hi := Nat.min block.2 i.2
    if hi < lo then []
    else if hi < 0x80 then [[(lo, hi)]]
    else (align [64, 4096, 262144] lo hi).map fun part => (bytes part.1).zip (bytes part.2)

/-- The byte sequences of a set. -/
def sequences (xs : Intervals) : List (List ByteRange) := xs.flatMap sequencesOf

end Ripple.Encoding
