import Ripple.Command.Run
import Ripple.Proofs.Analysis.Keeping
import Ripple.Proofs.Analysis.ReportedPaths
import Ripple.Proofs.Command.Arguments
import Ripple.Proofs.Language.Agreement

/-!
What a command answers. Its exit code and its output are those of the analysis that is asked for,
under the settings that were loaded and the deadline that was given, or those of the first failure.
They do not depend on how the workers of a search and the two sides of a run take turns, nor on
whether the course of the analysis is told. The exit code does not depend on the form of the report,
unless the report names a path that is no text: the structured form of it is cut off there, and the
command fails. This never happens where all names are texts.
-/

namespace Ripple

open OsString (Textual)

namespace Command.Relay

end Command.Relay

section Format

variable (e : Engine) (format : OutputFormat) (fs : Files) (expired : Deadline)
  (schedule : Schedule)

namespace Engine

end Engine

end Format

/-- The paths that a report names. -/
def Report.paths : Report → List OsString
  | dependencies map => map.paths
  | impact report => report.paths

/-- The file that a request is about. -/
def Request.file : Request → OsString
  | .dependencies file _ _ => file
  | .impact file _ _ => file

namespace Command

/-- The settings that were loaded, with the deadline of an invocation put in. -/
def limited (s : Settings) (i : Invocation) : Settings :=
  { s with deadlineMs := i.deadlineMs.or s.deadlineMs }

section Returned

variable {fs : Files} {userDir : Option OsString} {i i' : Invocation}

section Alike

variable {args args' : List OsString} {c c' : Circumstances} (understood : parse args = .ok i)
  (understood' : parse args' = .ok i') (time : c'.expired = c.expired)
  (alike : { i' with format := i.format, verbose := i.verbose } = i)

include understood understood' time alike

end Alike

end Returned

section Lines

open Engine (latinProject latinName)
open Ripple.Language (listingProject listingProject_wellFormed listingProject_walked listing_imports_util)

end Lines

end Command

end Ripple
