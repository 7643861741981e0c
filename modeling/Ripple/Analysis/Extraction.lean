import Ripple.Language.Extract

/-!
Extraction for a source whose language may be unknown. What cannot be looked for gives no items and
a note that says so.
-/

namespace Ripple

/-- What was found, and a note if it could not be looked for. -/
structure Extraction (α : Type) where
  items : List α
  note : Option String

namespace Extraction

def unknownLanguage (what : String) : String :=
  what ++ " is not supported for this file type (no language rules registered)"

/-- The declarations of a source. -/
def exports (source : String) : Option Language → Extraction Export
  | none => ⟨[], some (unknownLanguage "Export extraction")⟩
  | some l =>
    match l.exports? source with
    | some items => ⟨items, none⟩
    | none => ⟨[], some ("Export extraction is not supported for " ++ l.name)⟩

/-- The imports of a source. -/
def imports (source : String) : Option Language → Extraction Import
  | none => ⟨[], some (unknownLanguage "Import extraction")⟩
  | some l => ⟨l.imports source, none⟩

end Extraction

end Ripple
