import Ripple.Analysis.Report

/-!
Reports in Markdown.
-/

namespace Ripple

namespace Markdown

/-- A text set as code. -/
def code (t : String) : String := "`" ++ t ++ "`"

/-- A titled list; nothing for an empty one. -/
def section? (title : String) (items : List String) : List String :=
  if items.isEmpty then [] else ["## " ++ title, ""] ++ items.map ("- " ++ ·) ++ [""]

/-- The imports of one origin on a line. -/
def origin (title : String) (names : List String) : List String :=
  if names.isEmpty then []
  else ["- **" ++ title ++ "**: " ++ Text.join ", " (names.map code)]

def fileItem (file : OsString) : String := "- " ++ code file.display

def importers (s : DependentScan) : List String :=
  ["## Imported by", ""] ++ s.files.map fileItem ++
  ["", "_" ++ toString s.scanned ++ " files scanned" ++
    (if s.complete then "" else ", search stopped early") ++ "._", ""]

def symbolRow (e : Export) : String :=
  "| " ++ code e.name ++ " | " ++ e.kind.label ++ " | " ++ toString e.line ++ " | " ++
    (if e.isPublic then "yes" else "no") ++ " |"

def symbolTable (exports : List Export) : List String :=
  if exports.isEmpty then []
  else ["## Exports", "", "| Symbol | Kind | Line | Public |",
    "|--------|------|------|--------|"] ++ exports.map symbolRow ++ [""]

def uses (u : String × List Usage) : List String :=
  ["### " ++ code u.1, ""] ++
  u.2.map (fun use => "- " ++ code (use.file.display ++ ":" ++ toString use.line) ++ " " ++
    code use.snippet) ++ [""]

end Markdown

/-- The lines of a dependency map in Markdown. -/
def DependencyMap.markdownLines (m : DependencyMap) : List String :=
  ["# Dependencies of " ++ Markdown.code m.target.display, "", "## Imports", ""] ++
  (if m.imports.isEmpty then ["_None found._"] else []) ++
  Markdown.origin "Standard library" (m.named .stdlib) ++
  Markdown.origin "Internal" (m.named .internal) ++
  Markdown.origin "External" (m.named .external) ++
  [""] ++
  (m.importedBy.map Markdown.importers).getD [] ++
  Markdown.section? "Notes" m.notes ++
  Markdown.section? "Suggestions" m.suggestions

/-- The lines of an impact report in Markdown. -/
def ImpactReport.markdownLines (r : ImpactReport) : List String :=
  ["# Impact of changing " ++ Markdown.code r.target.display, "",
    "> **Risk: " ++ r.risk.level.title ++ "** (score " ++ toString r.risk.score ++ ")"] ++
  r.risk.reasons.map ("> - " ++ ·) ++ [""] ++
  Markdown.symbolTable r.exports ++
  ["## Dependents (" ++ toString r.dependents.length ++ ")", ""] ++
  r.dependents.map Markdown.fileItem ++ [""] ++
  (if r.usages.entries.isEmpty then []
    else ["## Usages", ""] ++ r.usages.entries.flatMap Markdown.uses) ++
  Markdown.section? "Notes" r.notes ++
  Markdown.section? "Warnings" r.warnings ++
  Markdown.section? "Suggestions" r.suggestions

end Ripple
