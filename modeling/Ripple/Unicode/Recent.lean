import Ripple.Unicode.Category

/-!
The characters that version 17.0 of the standard adds. Patterns know the characters up to version
16.0; the predicates on plain text know these as well.
-/

namespace Ripple.Unicode.Recent

/-- The new code points of each category. -/
def rows : List (Category × Table Nat) :=
  [(.lu, Table.ofRanges ["a7ce a7d2 a7d4 16ea0-16eb8"]),
   (.ll, Table.ofRanges ["a7cf 16ebb-16ed3"]),
   (.lm, Table.ofRanges ["a7f1 10ec5 11dd9 16ff2-16ff3 1e6ff"]),
   (.lo, Table.ofRanges
    ["88f c5c cdc 10940-10959 10ec6-10ec7 11db0-11dd8 11dda-11ddb 187f8-187ff 18d09-18d1e",
     "18d80-18df2 1e6c0-1e6de 1e6e0-1e6e2 1e6e4-1e6e5 1e6e7-1e6ed 1e6f0-1e6f4 1e6fe",
     "2b73a-2b73f 2cea2-2cead 323b0-33479"]),
   (.mn, Table.ofRanges
    ["1acf-1add 1ae0-1aeb 10efa-10efb 11b60 11b62-11b64 11b66 1e6e3 1e6e6 1e6ee-1e6ef 1e6f5"]),
   (.mc, Table.ofRanges ["11b61 11b65 11b67"]),
   (.nd, Table.ofRanges ["11de0-11de9"]),
   (.nl, Table.ofRanges ["16ff4-16ff6"]),
   (.po, Table.ofRanges ["10ed0"]),
   (.sm, Table.ofRanges ["1cef0 1f8d0-1f8d8"]),
   (.sc, Table.ofRanges ["20c1"]),
   (.so, Table.ofRanges
    ["2b96 fbc3-fbd2 fd90-fd91 fdc8-fdce 10ed1-10ed8 1ccfa-1ccfc 1ceba-1ced0 1cee0-1ceef 1f6d8",
     "1f777-1f77a 1fa54-1fa57 1fa8a 1fa8e 1fac8 1facd 1faea 1faef 1fbfa"])]

/-- The new marks that stand for letters. -/
def otherAlphabetic : Table Nat :=
  Table.ofRanges ["10efa-10efb 11b60-11b67 1e6e3 1e6e6 1e6ee-1e6ef 1e6f5"]

/-- The general category of a character, the new ones included. -/
def categoryOf (c : Char) : Category :=
  match Category.of c with
  | .cn => ((rows.find? fun row => row.2.holds c.toNat).map Prod.fst).getD .cn
  | known => known

end Ripple.Unicode.Recent
