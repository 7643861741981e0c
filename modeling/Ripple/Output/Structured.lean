import Ripple.Analysis.Report
import Ripple.Output.Document

/-!
Reports and settings as structured documents.
-/

namespace Ripple

open Document

def Import.toDocument (i : Import) : Document :=
  record [("raw", text i.name), ("category", text i.origin.label)]

def Export.toDocument (e : Export) : Document :=
  record [("name", text e.name), ("kind", text e.kind.label), ("decl_line", number e.line),
    ("is_public", bool e.isPublic)]

def Usage.toDocument (u : Usage) : Document :=
  record [("file", path u.file), ("line", number u.line), ("snippet", text u.snippet)]

def UsageMap.toDocument (m : UsageMap) : Document :=
  record (m.entries.map fun u => (u.1, list (u.2.map Usage.toDocument)))

/-- Files that depend on a target. -/
def dependentFiles (files : List OsString) : Document :=
  list (files.map fun file => record [("relative_path", path file)])

def DependentScan.toDocument (s : DependentScan) : Document :=
  record [("files", dependentFiles s.files), ("files_scanned", number s.scanned),
    ("complete", bool s.complete)]

namespace DependencyMap

/-- The fields of a map. A search that was not made has none. -/
def fields (m : DependencyMap) : List (String × Document) :=
  [("target_file", path m.target), ("language", optionalText m.language),
    ("imports", list (m.imports.map Import.toDocument))] ++
  (match m.importedBy with
    | some scan => [("imported_by", scan.toDocument)]
    | none => []) ++
  [("notes", texts m.notes), ("suggestions", texts m.suggestions)]

/-- The names of the imports, by origin. -/
def grouped (m : DependencyMap) : Document :=
  record [("stdlib", texts (m.named .stdlib)), ("internal", texts (m.named .internal)),
    ("external", texts (m.named .external))]

def toDocument (m : DependencyMap) : Document :=
  record (m.fields ++ [("grouped", m.grouped)])

end DependencyMap

def Risk.fields (r : Risk) : List (String × Document) :=
  [("risk_score", number r.score), ("risk_level", text r.level.label),
    ("risk_reasons", texts r.reasons)]

def ImpactSummary.toDocument (s : ImpactSummary) : Document :=
  record [("dependent_count", number s.dependents), ("export_count", number s.exports),
    ("public_export_count", number s.publicExports), ("total_usages", number s.usages)]

namespace ImpactReport

def fields (r : ImpactReport) : List (String × Document) :=
  [("target_file", path r.target), ("language", optionalText r.language),
    ("exports", list (r.exports.map Export.toDocument)),
    ("dependents", dependentFiles r.dependents), ("usages", r.usages.toDocument)] ++
  r.risk.fields ++
  [("files_scanned", number r.scanned), ("complete", bool r.complete), ("notes", texts r.notes),
    ("suggestions", texts r.suggestions), ("warnings", texts r.warnings)]

def toDocument (r : ImpactReport) : Document :=
  record (r.fields ++ [("summary", r.summary.toDocument)])

end ImpactReport

namespace Visibility

def toDocument : Visibility → Document
  | noLeadingUnderscore => text "no_leading_underscore"
  | capitalized => text "capitalized"
  | exported => text "exported"
  | modifier word => record [("modifier", text word)]

end Visibility

def ExportDefinition.toDocument (e : ExportDefinition) : Document :=
  record [("pattern", text e.pattern), ("kind", text e.kind.label),
    ("visibility", e.visibility.toDocument)]

def LanguageDefinition.toDocument (d : LanguageDefinition) : Document :=
  record [("name", text d.name), ("extensions", texts d.extensions),
    ("export_patterns", list (d.exportPatterns.map ExportDefinition.toDocument)),
    ("import_patterns", texts d.importPatterns),
    ("dependency_patterns", texts d.dependencyPatterns), ("stdlib", texts d.stdlib)]

/-- A number that may be missing. -/
def optionalNumber : Option Nat → Document
  | some n => number n
  | none => null

def Settings.toDocument (s : Settings) : Document :=
  record [("skip_dirs", texts s.skipDirs), ("search_extensions", texts s.searchExtensions),
    ("usage_limit", number s.usageLimit), ("snippet_width", number s.snippetWidth),
    ("deadline_ms", optionalNumber s.deadlineMs), ("max_file_size", optionalNumber s.maxFileSize),
    ("respect_gitignore", bool s.honourIgnoreFiles),
    ("languages", list (s.languages.map LanguageDefinition.toDocument)),
    ("output_format", text s.outputFormat.label)]

end Ripple
