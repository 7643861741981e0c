import Ripple.Analysis.Report

/-!
Reports as plain text.
-/

namespace Ripple

/-- Ends each line with a line feed. -/
def Text.unlines (lines : List String) : String :=
  String.join (lines.map fun line => line ++ "\n")

namespace Plain

/-- A titled list; nothing for an empty one. -/
def section? (title : String) (items : List String) : List String :=
  if items.isEmpty then [] else (title ++ ":") :: items.map ("  - " ++ ·)

/-- The imports of one origin on a line. -/
def origin (title : String) (names : List String) : List String :=
  if names.isEmpty then []
  else [title ++ " (" ++ toString names.length ++ "): " ++ Text.join ", " names]

def importers (s : DependentScan) : List String :=
  ("Imported by " ++ toString s.files.length ++ " file(s) (" ++ toString s.scanned ++
    " scanned):") :: s.files.map fun file => "  " ++ file.display

end Plain

/-- The lines of a dependency map in plain text. -/
def DependencyMap.plainLines (m : DependencyMap) : List String :=
  ["=== DEPENDENCIES: " ++ m.target.display ++ " ==="] ++
  (m.language.map ("Language: " ++ ·)).toList ++
  Plain.origin "Standard library" (m.named .stdlib) ++
  Plain.origin "Internal" (m.named .internal) ++
  Plain.origin "External" (m.named .external) ++
  (m.importedBy.map Plain.importers).getD [] ++
  Plain.section? "Notes" m.notes ++
  Plain.section? "Suggestions" m.suggestions

namespace Plain

def symbol (e : Export) : String :=
  "  " ++ e.kind.label ++ " " ++ e.name ++ " [line " ++ toString e.line ++ "]" ++
    if e.isPublic then "" else " (private)"

def uses (u : String × List Usage) : List String :=
  ("  " ++ u.1 ++ ":") :: u.2.map fun use =>
    "    " ++ use.file.display ++ ":" ++ toString use.line ++ "  " ++ use.snippet

end Plain

/-- The lines of an impact report in plain text. -/
def ImpactReport.plainLines (r : ImpactReport) : List String :=
  let counts := r.summary
  ["=== IMPACT: " ++ r.target.display ++ " ===",
    "Risk: " ++ r.risk.level.title ++ " (score " ++ toString r.risk.score ++ ")"] ++
  r.risk.reasons.map ("  * " ++ ·) ++
  ["", "Exports: " ++ toString counts.exports ++ " (" ++ toString counts.publicExports ++
    " public)"] ++
  r.exports.map Plain.symbol ++
  ["Dependents: " ++ toString counts.dependents ++ " (" ++ toString r.scanned ++
    " files scanned" ++ (if r.complete then "" else ", partial") ++ ")"] ++
  r.dependents.map (fun file => "  " ++ file.display) ++
  (if r.usages.entries.isEmpty then []
    else ("Usages: " ++ toString counts.usages) :: r.usages.entries.flatMap Plain.uses) ++
  Plain.section? "Notes" r.notes ++
  Plain.section? "Warnings" r.warnings ++
  Plain.section? "Suggestions" r.suggestions

end Ripple
