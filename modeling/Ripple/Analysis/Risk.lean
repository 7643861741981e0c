import Ripple.Text.Basic
import Ripple.Unicode.Lowercase

/-!
The risk of a change. Points are added up for files that depend on the changed one, for its public
symbols, for their uses, and for words in the description of the change that announce a break.
-/

namespace Ripple

inductive RiskLevel where
  | low | medium | high | critical
  deriving DecidableEq, Repr

namespace RiskLevel

/-- The level of a number of points. -/
def ofScore (score : Nat) : RiskLevel :=
  if score = 0 then low
  else if score ≤ 2 then medium
  else if score ≤ 4 then high
  else critical

def label : RiskLevel → String
  | low => "low"
  | medium => "medium"
  | high => "high"
  | critical => "critical"

/-- The label in capitals. -/
def title (l : RiskLevel) : String := String.ofList (l.label.toList.map Char.toUpper)

/-- Levels at which a warning is due. -/
def isElevated : RiskLevel → Bool
  | low | medium => false
  | high | critical => true

end RiskLevel

/-- Points, and a line for each reason. -/
structure Risk where
  score : Nat
  reasons : List String
  deriving DecidableEq, Repr

namespace Risk

def level (r : Risk) : RiskLevel := .ofScore r.score

/-- The sum of two assessments. -/
def plus (r s : Risk) : Risk := ⟨r.score + s.score, r.reasons ++ s.reasons⟩

def none : Risk := ⟨0, []⟩

/-- The part of the files that depend on the changed one. -/
def ofDependents (n : Nat) : Risk :=
  if n = 0 then ⟨0, ["No files depend on this - changes are isolated"]⟩
  else if n = 1 then ⟨1, ["1 file depends on this"]⟩
  else if n = 2 then ⟨1, ["2 files depend on this"]⟩
  else if n ≤ 5 then ⟨2, [toString n ++ " files depend on this - moderate reach"]⟩
  else ⟨3, [toString n ++ " files depend on this - wide impact"]⟩

/-- The part of the public symbols. -/
def ofExports (n : Nat) : Risk :=
  if 10 < n then ⟨1, ["File exports " ++ toString n ++ " public symbols"]⟩ else none

/-- The part of the uses. -/
def ofUsages (n : Nat) : Risk :=
  if 20 < n then ⟨2, ["Symbols are used " ++ toString n ++ " times across dependents"]⟩
  else if 5 < n then ⟨1, ["Symbols are used " ++ toString n ++ " times"]⟩
  else none

/-- Words of a description that announce a break, in the order of their priority. -/
def breakingWords : List String :=
  ["rename", "delete", "remove", "signature", "parameter", "return type"]

/-- The first breaking word that is part of a description in lower case. -/
def breakingWord? (change : String) : Option String :=
  let lowered := Unicode.lowercase change.toList
  breakingWords.find? fun word => Text.contains word.toList lowered

/-- The part of the description of the change. -/
def ofChange (change : Option String) : Risk :=
  match change.bind breakingWord? with
  | some word => ⟨1, ["Proposed change involves '" ++ word ++ "' - may break callers"]⟩
  | Option.none => none

/-- The risk of a change, from the numbers of dependent files, public symbols and uses, and from the
description of the change. -/
def assess (dependents exports usages : Nat) (change : Option String) : Risk :=
  (((ofDependents dependents).plus (ofExports exports)).plus (ofUsages usages)).plus
    (ofChange change)

end Risk

end Ripple
