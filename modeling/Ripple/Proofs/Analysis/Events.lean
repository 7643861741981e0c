import Ripple.Proofs.Analysis.ReverseSearch

/-!
The events of an analysis. What is told from the beginning of an analysis to its end follows from
what the analysis returns: whether it fails, whether it searches for dependents, which ones it
reports and whether it is complete. Only the order in which dependents are found is left to the
workers. No search takes place if the stem of the target's name is no text, and none is told of then.
-/

namespace Ripple

open Ripple.Path

/-- The events of an analysis with a search, from its beginning to its end: each reported file is
told once, in some order. -/
def Tells (file : OsString) (walked : Nat) (files : List OsString) (complete : Bool)
    (events : List Event) : Prop :=
  files.Nodup ∧ ∃ found : List OsString, found.Perm files ∧
    events = .started file :: .filesFound walked :: found.map .dependentFound ++
      (if complete then [] else [.deadlineExceeded]) ++ [.complete]

/-- What an analysis tells about itself fits to what it returns. If the dependents were asked for, the
result has the path of the root, the reported files and whether they are all; a search for them is
made if the stem of the target's name is a text. -/
def Run.Follows {α : Type} (run : Run α) (e : Engine) (fs : Files) (file : OsString)
    (search : α → Option (OsString × List OsString × Bool)) : Prop :=
  match run.result with
  | .error _ => run.events = [.started file]
  | .ok value =>
    match search value with
    | none => run.events = [.started file, .complete]
    | some (root, files, complete) => ∃ target base, fs.locate file = .ok target ∧
      fs.locate root = .ok base ∧
      if (textStem? (Files.pathOf target)).isSome then
        Tells file (fs.walk (e.searchFilter target) base).length files complete run.events
      else files = [] ∧ complete = true ∧ run.events = [.started file, .complete]

namespace Engine

section Search

variable {fs : Files}

end Search

section Analysis

variable {fs : Files} {file : OsString}

end Analysis

/-- Workers who take the last candidates first, and the two who come first alternately at first. -/
def backward : Schedule := ⟨List.reverse, List.reverse_perm, [0, 1, 0, 1]⟩

end Engine

end Ripple
