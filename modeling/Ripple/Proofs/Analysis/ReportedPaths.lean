import Ripple.Proofs.Analysis.ReverseSearch
import Ripple.Proofs.Analysis.Tracking
import Ripple.Proofs.Output.Reports

/-!
The paths that the results of the analyses name: that of the target as it was given, and paths from the
root to files that the walk lists. Uses are recorded in dependents only. So in a tree whose names are
texts all of these paths are texts, if the path of the target is one.
-/

namespace Ripple

open Ripple.Path Node
open OsString (Textual)

/-- All names in a tree are texts. -/
def Files.Named (fs : Files) : Prop :=
  ∀ location node, fs.top.at? location = some node → Textual location

namespace Engine

variable {e : Engine} {fs : Files} {expired : Deadline} {schedule : Schedule}
  {target root : List OsString}

section Named

variable (formed : fs.top.WellFormed) (named : fs.Named)

include formed named

variable {file : OsString} (given : file.text?.isSome = true)

include given

end Named

end Engine

end Ripple
