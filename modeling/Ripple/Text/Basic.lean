import Ripple.Unicode.Property

/-!
Operations on text as a list of characters: trimming, cutting into pieces, looking for a part and
replacing it.
-/

namespace Ripple.Text

/-- The text without the blanks at its ends. -/
def trim (cs : List Char) : List Char :=
  ((cs.dropWhile Unicode.isSpace).reverse.dropWhile Unicode.isSpace).reverse

/-- The text without the blanks at its end. -/
def trimEnd (cs : List Char) : List Char :=
  (cs.reverse.dropWhile Unicode.isSpace).reverse

/-- The pieces between the elements that pass the test; there is always at least one. -/
def splitBy {α : Type} (test : α → Bool) (cs : List α) : List (List α) :=
  cs.foldr
    (fun c pieces =>
      if test c then [] :: pieces
      else match pieces with
        | piece :: pieces => (c :: piece) :: pieces
        | [] => [[c]])
    [[]]

/-- The pieces between the occurrences of a separator. -/
def splitOn {α : Type} [DecidableEq α] (sep : α) (cs : List α) : List (List α) :=
  splitBy (· = sep) cs

/-- The non-empty pieces between blanks. -/
def words (cs : List Char) : List (List Char) :=
  (splitBy Unicode.isSpace cs).filter fun piece => !piece.isEmpty

/-- Whether `part` occurs in a text as a contiguous part. -/
def contains (part : List Char) : List Char → Bool
  | [] => part.isEmpty
  | c :: cs => part.isPrefixOf (c :: cs) || contains part cs

/-- What follows `part` at the beginning of a text, if it begins with it. -/
def stripPrefix? (part cs : List Char) : Option (List Char) :=
  if part.isPrefixOf cs then some (cs.drop part.length) else none

/-- Replaces the occurrences of `part`, found from left to right without overlap. The first argument
counts the characters of an occurrence that are still to be passed over. -/
def replaceFrom (part new : List Char) : Nat → List Char → List Char
  | _, [] => []
  | skip + 1, _ :: cs => replaceFrom part new skip cs
  | 0, c :: cs =>
    if part.isPrefixOf (c :: cs) then new ++ replaceFrom part new (part.length - 1) cs
    else c :: replaceFrom part new 0 cs

/-- Replaces every occurrence of a non-empty `part` by `new`. -/
def replace (part new cs : List Char) : List Char := replaceFrom part new 0 cs

/-- What follows the last occurrence of `part`; the whole text if there is none. -/
def afterLast (part cs : List Char) : List Char :=
  go cs cs
where
  /-- Looks for occurrences from the given suffix on, with the best answer so far. -/
  go (best : List Char) : List Char → List Char
    | [] => best
    | c :: rest =>
      if part.isPrefixOf (c :: rest) then go ((c :: rest).drop part.length) rest
      else go best rest

/-- Removes `part` from the end of a text as often as it stands there; at most `bound` times. -/
def stripSuffixes (part : List Char) : Nat → List Char → List Char
  | 0, cs => cs
  | bound + 1, cs =>
    if !part.isEmpty && part.isSuffixOf cs then
      stripSuffixes part bound (cs.take (cs.length - part.length))
    else cs

/-- Joins texts with a separator between them. -/
def join (sep : String) (parts : List String) : String := String.intercalate sep parts

/-- The texts of a list in ascending order, each once. -/
def ascending (texts : List String) : List String :=
  (texts.mergeSort fun a b => decide (a ≤ b)).foldr
    (fun t rest => if rest.head? = some t then rest else t :: rest) []

end Ripple.Text
