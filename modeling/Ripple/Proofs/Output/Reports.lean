import Ripple.Output.Render
import Ripple.Proofs.Output.Reading
import Ripple.Proofs.Text.OsString

/-!
What structured reports hold. A report can be written if all its paths are texts. Both texts of it are
then read as one document, which has no name twice in any record. All parts of the report can be read
off the document again, and what it adds to them, the grouped imports and the summary, agrees with
these parts.
-/

namespace Ripple

namespace Document

/-- No record in a document has two fields of one name. -/
inductive Distinct : Document → Prop
  | null : Distinct null
  | bool (b : Bool) : Distinct (bool b)
  | number (n : Nat) : Distinct (number n)
  | text (s : String) : Distinct (text s)
  | unwritable : Distinct unwritable
  | list {items : List Document} : (∀ d ∈ items, Distinct d) → Distinct (list items)
  | record {fields : List (String × Document)} : (fields.map (·.1)).Nodup →
      (∀ field ∈ fields, Distinct field.2) → Distinct (record fields)

section Lines

theorem not_mem_intercalate {α : Type} {sep x : α} {parts : List (List α)} (other : x ≠ sep)
    (each : ∀ part ∈ parts, x ∉ part) : x ∉ [sep].intercalate parts := by
  induction parts with
  | nil => simp [List.intercalate]
  | cons part parts ih =>
    obtain ⟨first, others⟩ := List.forall_mem_cons.mp each
    cases parts with
    | nil => rwa [List.intercalate_singleton]
    | cons next parts =>
      rw [List.intercalate_cons_cons, List.append_assoc, List.mem_append, List.mem_append,
        List.mem_singleton, not_or, not_or]
      exact ⟨first, other, ih others⟩

theorem feed_not_mem_escapedChar (c : Char) : '\n' ∉ escapedChar c := by
  unfold escapedChar
  split
  iterate 7 decide
  next _ _ _ _ _ feed _ _ =>
    split
    next control =>
      -- A line end would be written by its code, and codes have digits and letters only.
      have digits : ∀ n < 32, '\n' ≠ Nat.digitChar (n / 16) ∧ '\n' ≠ Nat.digitChar (n % 16) := by
        decide
      obtain ⟨high, low⟩ := digits c.toNat control
      simp [high, low]
    next => simpa [eq_comm] using feed

theorem feed_not_mem_quote (value : String) : '\n' ∉ quote value := by
  simp [quote, feed_not_mem_escapedChar]

theorem feed_not_mem_atom (d : Document) : '\n' ∉ d.atom := by
  cases d with
  | null => decide
  | list items => exact (by decide : '\n' ∉ "[]".toList)
  | record fields => exact (by decide : '\n' ∉ ['\x7b', '\x7d'])
  | bool b => cases b <;> decide
  | number n =>
    intro member
    have digit := Nat.isDigit_of_mem_toDigits (by decide) (by decide) member
    revert digit
    decide
  | text value => exact feed_not_mem_quote value
  | unwritable => exact List.not_mem_nil

theorem feed_not_mem_puts {l : Layout} {level : Nat} {d : Document}
    (put : d.strokes l level = puts d.atom) : '\n' ∉ d.chars l level := by
  rw [chars, put, filterMap_puts]
  exact feed_not_mem_atom d

/-- The form on one line has no line end in it, whatever the texts of the document. -/
theorem feed_not_mem_chars (d : Document) (level : Nat) : '\n' ∉ d.chars .compact level := by
  induction d using Document.induction generalizing level with
  | null | bool | number | text => exact feed_not_mem_puts rfl
  | unwritable => exact List.not_mem_nil
  | list items ih =>
    cases items with
    | nil => exact feed_not_mem_puts rfl
    | cons first rest =>
      rw [chars_list]
      simp only [List.mem_cons, List.mem_append, List.not_mem_nil, or_false, not_or]
      exact ⟨by decide, not_mem_intercalate (by decide) (List.forall_mem_map.mpr fun d member =>
        ih d member _), List.not_mem_nil, by decide⟩
  | record fields ih =>
    cases fields with
    | nil => exact feed_not_mem_puts rfl
    | cons first rest =>
      rw [chars_record]
      simp only [List.mem_cons, List.mem_append, List.not_mem_nil, or_false, not_or]
      refine ⟨by decide, not_mem_intercalate (by decide) (List.forall_mem_map.mpr ?_),
        List.not_mem_nil, by decide⟩
      intro field member
      rw [List.mem_append, List.mem_append, List.mem_append, not_or, not_or, not_or]
      exact ⟨⟨⟨List.not_mem_nil, feed_not_mem_quote field.1⟩, by decide⟩, ih field member _⟩

end Lines

section Parts

/-- The field of a record with a name. -/
def field? : Document → String → Option Document
  | record fields, name => fields.lookup name
  | _, _ => none

def text? : Document → Option String
  | text value => some value
  | _ => none

/-- A path, which is written as a text. -/
def path? (d : Document) : Option OsString := d.text?.map OsString.ofText

def number? : Document → Option Nat
  | number n => some n
  | _ => none

def bool? : Document → Option Bool
  | bool b => some b
  | _ => none

/-- A text that may be missing. -/
def optionalText? : Document → Option (Option String)
  | null => some none
  | text value => some (some value)
  | _ => none

/-- The items of a list, each of them read in the same way. -/
def items? {α : Type} (read : Document → Option α) : Document → Option (List α)
  | list items => items.mapM read
  | _ => none

/-- The field with a name, read in a given way. -/
def get? {α : Type} (d : Document) (name : String) (read : Document → Option α) : Option α :=
  (d.field? name).bind read

/-- The field with a name, which may be missing. -/
def maybe? {α : Type} (d : Document) (name : String) (read : Document → Option α) :
    Option (Option α) :=
  match d.field? name with
  | none => some none
  | some value => (read value).map some

theorem mapM_eq_some {α β : Type} {read : β → Option α} {write : α → β} {xs : List α}
    (each : ∀ x ∈ xs, read (write x) = some x) : (xs.map write).mapM read = some xs := by
  induction xs with
  | nil => rfl
  | cons x xs ih =>
    obtain ⟨first, others⟩ := List.forall_mem_cons.mp each
    rw [List.map_cons, List.mapM_cons, first, ih others]
    rfl

theorem items?_list {α : Type} {read : Document → Option α} {write : α → Document} {xs : List α}
    (each : ∀ x ∈ xs, read (write x) = some x) : items? read (list (xs.map write)) = some xs :=
  mapM_eq_some each

@[simp] theorem items?_texts (values : List String) : items? text? (texts values) = some values :=
  @items?_list _ text? text _ fun _ _ => rfl

/-- A path that is a text is read as it was written. -/
theorem path?_path {p : OsString} (textual : p.text?.isSome = true) : path? (path p) = some p := by
  obtain ⟨value, encoded⟩ := Option.isSome_iff_exists.mp textual
  rw [path, encoded, OsString.text?_eq_some_iff.mp encoded]
  rfl

@[simp] theorem optionalText?_optionalText (value : Option String) :
    optionalText? (optionalText value) = some value := by
  cases value <;> rfl

end Parts

end Document

open Document
open OsString (Textual)

section Reading

def Origin.ofLabel? (label : String) : Option Origin :=
  [Origin.stdlib, .internal, .external].find? fun o => o.label = label

def SymbolKind.ofLabel? (label : String) : Option SymbolKind :=
  [SymbolKind.function, .type, .constant, .var].find? fun k => k.label = label

def Import.ofDocument? (d : Document) : Option Import := do
  let name ← d.get? "raw" text?
  let origin ← d.get? "category" fun v => v.text?.bind Origin.ofLabel?
  return ⟨name, origin⟩

def Export.ofDocument? (d : Document) : Option Export := do
  let name ← d.get? "name" text?
  let kind ← d.get? "kind" fun v => v.text?.bind SymbolKind.ofLabel?
  let line ← d.get? "decl_line" number?
  let isPublic ← d.get? "is_public" bool?
  return ⟨name, kind, line, isPublic⟩

def Usage.ofDocument? (d : Document) : Option Usage := do
  let file ← d.get? "file" path?
  let line ← d.get? "line" number?
  let snippet ← d.get? "snippet" text?
  return ⟨file, line, snippet⟩

/-- The uses of each symbol, if their names ascend. -/
def UsageMap.ofDocument? : Document → Option UsageMap
  | .record fields => do
    let entries ← fields.mapM fun f => (items? Usage.ofDocument? f.2).map fun uses => (f.1, uses)
    if ordered : entries.Pairwise fun a b => a.1 < b.1 then return ⟨entries, ordered⟩ else none
  | _ => none

/-- The files of a list of dependents. -/
def dependentFiles? : Document → Option (List OsString) :=
  items? fun d => d.get? "relative_path" path?

def DependentScan.ofDocument? (d : Document) : Option DependentScan := do
  let files ← d.get? "files" dependentFiles?
  let scanned ← d.get? "files_scanned" number?
  let complete ← d.get? "complete" bool?
  return ⟨files, scanned, complete⟩

def DependencyMap.ofDocument? (d : Document) : Option DependencyMap := do
  let target ← d.get? "target_file" path?
  let language ← d.get? "language" optionalText?
  let imports ← d.get? "imports" (items? Import.ofDocument?)
  let importedBy ← d.maybe? "imported_by" DependentScan.ofDocument?
  let notes ← d.get? "notes" (items? text?)
  let suggestions ← d.get? "suggestions" (items? text?)
  return ⟨target, language, imports, importedBy, notes, suggestions⟩

def ImpactReport.ofDocument? (d : Document) : Option ImpactReport := do
  let target ← d.get? "target_file" path?
  let language ← d.get? "language" optionalText?
  let exports ← d.get? "exports" (items? Export.ofDocument?)
  let dependents ← d.get? "dependents" dependentFiles?
  let usages ← d.get? "usages" UsageMap.ofDocument?
  let score ← d.get? "risk_score" number?
  let reasons ← d.get? "risk_reasons" (items? text?)
  let scanned ← d.get? "files_scanned" number?
  let complete ← d.get? "complete" bool?
  let notes ← d.get? "notes" (items? text?)
  let suggestions ← d.get? "suggestions" (items? text?)
  let warnings ← d.get? "warnings" (items? text?)
  return ⟨target, language, exports, dependents, usages, ⟨score, reasons⟩, scanned, complete, notes,
    suggestions, warnings⟩

theorem Import.ofDocument?_toDocument (i : Import) : ofDocument? i.toDocument = some i := by
  obtain ⟨name, origin⟩ := i
  cases origin <;> rfl

theorem Export.ofDocument?_toDocument (e : Export) : ofDocument? e.toDocument = some e := by
  obtain ⟨name, kind, line, isPublic⟩ := e
  cases kind <;> rfl

theorem Usage.ofDocument?_toDocument {u : Usage} (textual : u.file.text?.isSome = true) :
    ofDocument? u.toDocument = some u := by
  have file : u.toDocument.get? "file" path? = some u.file := path?_path textual
  rw [ofDocument?, file]
  rfl

/-- The files that a map of uses names. -/
def UsageMap.paths (m : UsageMap) : List OsString :=
  m.entries.flatMap fun u => u.2.map (·.file)

theorem UsageMap.ofDocument?_toDocument {m : UsageMap}
    (textual : Textual m.paths) : ofDocument? m.toDocument = some m := by
  have entries : (m.entries.map fun u => (u.1, list (u.2.map Usage.toDocument))).mapM
      (fun f => (items? Usage.ofDocument? f.2).map fun uses => (f.1, uses)) = some m.entries := by
    refine mapM_eq_some fun u listed => ?_
    have each : ∀ use ∈ u.2, Usage.ofDocument? use.toDocument = some use := fun use member =>
      use.ofDocument?_toDocument
        (textual _ (List.mem_flatMap.mpr ⟨u, listed, List.mem_map_of_mem member⟩))
    rw [items?_list each, Option.map_some]
  rw [toDocument, ofDocument?, entries]
  exact dif_pos m.ordered

theorem dependentFiles?_dependentFiles {files : List OsString}
    (textual : Textual files) :
    dependentFiles? (dependentFiles files) = some files :=
  @items?_list _ (fun d => d.get? "relative_path" path?)
    (fun file => record [("relative_path", path file)]) _ fun p member => path?_path (textual p member)

theorem DependentScan.ofDocument?_toDocument {s : DependentScan}
    (textual : Textual s.files) : ofDocument? s.toDocument = some s := by
  have files : s.toDocument.get? "files" dependentFiles? = some s.files :=
    dependentFiles?_dependentFiles textual
  rw [ofDocument?, files]
  rfl

/-- The paths that a map names. -/
def DependencyMap.paths (m : DependencyMap) : List OsString :=
  m.target :: m.importedBy.elim [] (·.files)

theorem DependencyMap.ofDocument?_toDocument {m : DependencyMap}
    (textual : Textual m.paths) : ofDocument? m.toDocument = some m := by
  obtain ⟨targeted, listed⟩ := List.forall_mem_cons.mp textual
  have target : m.toDocument.get? "target_file" path? = some m.target := path?_path targeted
  have language : m.toDocument.get? "language" optionalText? = some m.language :=
    optionalText?_optionalText m.language
  have imports : m.toDocument.get? "imports" (items? Import.ofDocument?) = some m.imports :=
    items?_list fun i _ => i.ofDocument?_toDocument
  -- The fields behind a search that may be missing are found in either case.
  have rest : m.toDocument.maybe? "imported_by" DependentScan.ofDocument? = some m.importedBy ∧
      m.toDocument.get? "notes" (items? text?) = some m.notes ∧
      m.toDocument.get? "suggestions" (items? text?) = some m.suggestions := by
    clear target
    obtain ⟨_, _, _, importedBy, notes, suggestions⟩ := m
    cases importedBy with
    | none => exact ⟨rfl, items?_texts notes, items?_texts suggestions⟩
    | some scan =>
      refine ⟨?_, items?_texts notes, items?_texts suggestions⟩
      exact congrArg (Option.map some) (scan.ofDocument?_toDocument listed)
  rw [ofDocument?, target, language, imports, rest.1, rest.2.1, rest.2.2]
  rfl

/-- The paths that a report names. -/
def ImpactReport.paths (r : ImpactReport) : List OsString :=
  r.target :: (r.dependents ++ r.usages.paths)

theorem ImpactReport.ofDocument?_toDocument {r : ImpactReport}
    (textual : Textual r.paths) : ofDocument? r.toDocument = some r := by
  obtain ⟨targeted, others⟩ := List.forall_mem_cons.mp textual
  obtain ⟨listed, used⟩ := List.forall_mem_append.mp others
  have target : r.toDocument.get? "target_file" path? = some r.target := path?_path targeted
  have language : r.toDocument.get? "language" optionalText? = some r.language :=
    optionalText?_optionalText r.language
  have exports : r.toDocument.get? "exports" (items? Export.ofDocument?) = some r.exports :=
    items?_list fun e _ => e.ofDocument?_toDocument
  have dependents : r.toDocument.get? "dependents" dependentFiles? = some r.dependents :=
    dependentFiles?_dependentFiles listed
  have usages : r.toDocument.get? "usages" UsageMap.ofDocument? = some r.usages :=
    r.usages.ofDocument?_toDocument used
  have reasons : r.toDocument.get? "risk_reasons" (items? text?) = some r.risk.reasons :=
    items?_texts r.risk.reasons
  have notes : r.toDocument.get? "notes" (items? text?) = some r.notes := items?_texts r.notes
  have suggestions : r.toDocument.get? "suggestions" (items? text?) = some r.suggestions :=
    items?_texts r.suggestions
  have warnings : r.toDocument.get? "warnings" (items? text?) = some r.warnings :=
    items?_texts r.warnings
  rw [ofDocument?, target, language, exports, dependents, usages, reasons, notes, suggestions,
    warnings]
  rfl

end Reading

section Paths

theorem Document.writable_path_iff {p : OsString} : (path p).Writable ↔ p.text?.isSome = true := by
  rw [path]
  cases p.text? with
  | none => exact iff_of_false (by rintro ⟨⟩) (by simp)
  | some value => exact iff_of_true (.text value) rfl

theorem Document.writable_texts (values : List String) : (texts values).Writable :=
  .list (by simp [Writable.text])

theorem Document.writable_optionalText (value : Option String) : (optionalText value).Writable := by
  cases value with
  | none => exact .null
  | some value => exact .text value

theorem Import.writable (i : Import) : i.toDocument.Writable :=
  .record (by simp [Writable.text])

theorem Export.writable (e : Export) : e.toDocument.Writable :=
  .record (by simp [Writable.text, Writable.number, Writable.bool])

theorem Usage.writable_iff {u : Usage} : u.toDocument.Writable ↔ u.file.text?.isSome = true := by
  simp [toDocument, writable_record_iff, writable_path_iff, Writable.text, Writable.number]

theorem UsageMap.writable_iff {m : UsageMap} :
    m.toDocument.Writable ↔ Textual m.paths := by
  simp only [toDocument, writable_record_iff, List.forall_mem_map, writable_list_iff,
    Usage.writable_iff, paths, List.forall_mem_flatMap]

theorem writable_dependentFiles_iff {files : List OsString} :
    (dependentFiles files).Writable ↔ Textual files := by
  simp [dependentFiles, writable_list_iff, writable_record_iff, writable_path_iff]

theorem DependentScan.writable_iff {s : DependentScan} :
    s.toDocument.Writable ↔ Textual s.files := by
  simp [toDocument, writable_record_iff, writable_dependentFiles_iff, Writable.number, Writable.bool]

/-- A map can be written exactly if its paths are texts. -/
theorem DependencyMap.writable_iff {m : DependencyMap} :
    m.toDocument.Writable ↔ Textual m.paths := by
  have grouped : m.grouped.Writable := .record (by simp [writable_texts])
  obtain ⟨target, language, imports, importedBy, notes, suggestions⟩ := m
  cases importedBy with
  | none =>
    simp [toDocument, fields, paths, writable_record_iff, writable_path_iff, writable_optionalText,
      writable_list_iff, Import.writable, writable_texts, grouped, Textual]
  | some scan =>
    simp [toDocument, fields, paths, writable_record_iff, writable_path_iff, writable_optionalText,
      writable_list_iff, Import.writable, writable_texts, DependentScan.writable_iff, grouped, Textual]

/-- A report can be written exactly if its paths are texts. -/
theorem ImpactReport.writable_iff {r : ImpactReport} :
    r.toDocument.Writable ↔ Textual r.paths := by
  have summary : r.summary.toDocument.Writable := .record (by simp [Writable.number])
  simp only [paths, List.forall_mem_cons, List.forall_mem_append, ← UsageMap.writable_iff,
    ← writable_dependentFiles_iff]
  simp [toDocument, fields, Risk.fields, writable_record_iff, writable_path_iff,
    writable_optionalText, writable_list_iff, Export.writable, writable_texts, Writable.number,
    Writable.bool, Writable.text, summary]

end Paths

section Names

theorem Document.distinct_texts (values : List String) : (texts values).Distinct :=
  .list (by simp [Distinct.text])

theorem Document.distinct_optionalText (value : Option String) : (optionalText value).Distinct := by
  cases value with
  | none => exact .null
  | some value => exact .text value

theorem Document.distinct_list {α : Type} {write : α → Document} (each : ∀ x, (write x).Distinct)
    (xs : List α) : (list (xs.map write)).Distinct :=
  .list (List.forall_mem_map.mpr fun x _ => each x)

theorem Document.distinct_path (p : OsString) : (path p).Distinct := by
  rw [path]
  cases p.text? with
  | none => exact .unwritable
  | some value => exact .text value

theorem Import.distinct (i : Import) : i.toDocument.Distinct :=
  .record (by simp) (by simp [Distinct.text])

theorem Export.distinct (e : Export) : e.toDocument.Distinct :=
  .record (by simp) (by simp [Distinct.text, Distinct.number, Distinct.bool])

theorem Usage.distinct (u : Usage) : u.toDocument.Distinct :=
  .record (by simp) (by simp [distinct_path, Distinct.text, Distinct.number])

/-- The names of the symbols ascend, so none comes twice. -/
theorem UsageMap.distinct (m : UsageMap) : m.toDocument.Distinct := by
  refine .record ?_ (List.forall_mem_map.mpr fun u _ => distinct_list Usage.distinct u.2)
  rw [List.map_map, List.nodup_iff_pairwise_ne, List.pairwise_map]
  exact m.ordered.imp fun less => String.ne_of_lt less

theorem distinct_dependentFiles (files : List OsString) : (dependentFiles files).Distinct :=
  distinct_list (fun _ => .record (by simp) (by simp [distinct_path])) files

theorem DependentScan.distinct (s : DependentScan) : s.toDocument.Distinct :=
  .record (by simp) (by simp [distinct_dependentFiles, Distinct.number, Distinct.bool])

theorem DependencyMap.distinct (m : DependencyMap) : m.toDocument.Distinct := by
  have grouped : m.grouped.Distinct := .record (by simp) (by simp [distinct_texts])
  obtain ⟨target, language, imports, importedBy, notes, suggestions⟩ := m
  cases importedBy with
  | none =>
    refine .record (by simp [fields]) ?_
    simp [fields, distinct_path, distinct_optionalText, distinct_texts, distinct_list, Import.distinct,
      grouped]
  | some scan =>
    refine .record (by simp [fields]) ?_
    simp [fields, distinct_path, distinct_optionalText, distinct_texts, distinct_list, Import.distinct,
      DependentScan.distinct, grouped]

theorem ImpactReport.distinct (r : ImpactReport) : r.toDocument.Distinct := by
  have summary : r.summary.toDocument.Distinct := .record (by simp) (by simp [Distinct.number])
  refine .record (by simp [fields, Risk.fields]) ?_
  simp [fields, Risk.fields, distinct_path, Distinct.text, Distinct.number, Distinct.bool,
    distinct_optionalText, distinct_texts, distinct_list, distinct_dependentFiles, Export.distinct, UsageMap.distinct, summary]

end Names

/-- The names of imports are told apart by origin, and those of one origin keep their order. -/
inductive Groups : List Import → List String → List String → List String → Prop
  | nil : Groups [] [] [] []
  | stdlib {name : String} {imports : List Import} {s i e : List String} :
      Groups imports s i e → Groups (⟨name, .stdlib⟩ :: imports) (name :: s) i e
  | internal {name : String} {imports : List Import} {s i e : List String} :
      Groups imports s i e → Groups (⟨name, .internal⟩ :: imports) s (name :: i) e
  | external {name : String} {imports : List Import} {s i e : List String} :
      Groups imports s i e → Groups (⟨name, .external⟩ :: imports) s i (name :: e)

theorem groups_filter (imports : List Import) :
    Groups imports ((imports.filter fun i => i.origin = .stdlib).map (·.name))
      ((imports.filter fun i => i.origin = .internal).map (·.name))
      ((imports.filter fun i => i.origin = .external).map (·.name)) := by
  induction imports with
  | nil => exact .nil
  | cons first imports ih =>
    obtain ⟨name, origin⟩ := first
    cases origin with
    | stdlib => exact .stdlib ih
    | internal => exact .internal ih
    | external => exact .external ih

/-- The number of all uses is the sum of those of each symbol. -/
theorem UsageMap.total_eq (m : UsageMap) :
    m.total = (m.entries.map fun u => u.2.length).foldr (· + ·) 0 := by
  rw [total]
  induction m.entries with
  | nil => rfl
  | cons u entries ih => rw [List.flatMap_cons, List.length_append, ih, List.map_cons, List.foldr_cons]

/-- A text on one line and an indented text, each written as a whole, hold the same document, in which
no name comes twice in a record. -/
structure Holds (compact pretty : Written) (d : Document) : Prop where
  compactWhole : compact.whole = true
  prettyWhole : pretty.whole = true
  oneLine : ∃ line, compact.text.toList = line ++ ['\n'] ∧ '\n' ∉ line
  compactRead : read? compact.text = some d
  prettyRead : read? pretty.text = some d
  distinct : d.Distinct

theorem Document.holds {d : Document} (writable : d.Writable) (distinct : d.Distinct) :
    Holds (d.write .compact) (d.write .indented) d where
  compactWhole := (whole_write_iff _ d).mpr writable
  prettyWhole := (whole_write_iff _ d).mpr writable
  oneLine := ⟨d.chars .compact 0, text_write writable _, feed_not_mem_chars d 0⟩
  compactRead := read?_write writable setsApart_compact
  prettyRead := read?_write writable setsApart_indented
  distinct := distinct

theorem DependencyMap.field?_grouped (m : DependencyMap) :
    m.toDocument.field? "grouped" = some m.grouped := by
  obtain ⟨_, _, _, importedBy, _, _⟩ := m
  cases importedBy <;> rfl

/-- A search is in the document if it was made. -/
theorem DependencyMap.field?_importedBy (m : DependencyMap) :
    m.toDocument.field? "imported_by" = m.importedBy.map DependentScan.toDocument := by
  obtain ⟨_, _, _, importedBy, _, _⟩ := m
  cases importedBy <;> rfl

/-- Structured reports lose nothing. A map or a report is written as a whole exactly if its paths
are texts. Both texts of it then hold one document, off which the whole can be read again. The
document of a map has a search exactly if one was made and the imports grouped by origin; the
document of a report on the impact has the level of its risk and its counts. -/
theorem structured_reports_lose_nothing :
    (∀ m : DependencyMap,
      ((m.render .json).whole = true ↔ Textual m.paths) ∧
      (m.renderCompact.whole = true ↔ Textual m.paths) ∧
      (Textual m.paths → ∃ d, Holds m.renderCompact (m.render .json) d ∧
        DependencyMap.ofDocument? d = some m ∧
        ((d.field? "imported_by").isSome ↔ m.importedBy.isSome) ∧
        ∃ stdlib internal external, Groups m.imports stdlib internal external ∧
          d.field? "grouped" = some (record [("stdlib", texts stdlib), ("internal", texts internal),
            ("external", texts external)]))) ∧
    (∀ r : ImpactReport,
      ((r.render .json).whole = true ↔ Textual r.paths) ∧
      (r.renderCompact.whole = true ↔ Textual r.paths) ∧
      (Textual r.paths → ∃ d, Holds r.renderCompact (r.render .json) d ∧
        ImpactReport.ofDocument? d = some r ∧
        d.field? "risk_level" = some (text r.risk.level.label) ∧
        d.field? "summary" = some (record [("dependent_count", number r.dependents.length),
          ("export_count", number r.exports.length),
          ("public_export_count", number (r.exports.countP (·.isPublic))),
          ("total_usages",
            number ((r.usages.entries.map fun u => u.2.length).foldr (· + ·) 0))]))) := by
  -- The document is the one that both texts are written from.
  constructor
  · intro m
    rw [← m.writable_iff]
    refine ⟨whole_write_iff _ _, whole_write_iff _ _, fun writable => ⟨m.toDocument,
      Document.holds writable m.distinct, m.ofDocument?_toDocument (m.writable_iff.mp writable), ?_,
      _, _, _, groups_filter m.imports, m.field?_grouped⟩⟩
    rw [m.field?_importedBy, Option.isSome_map]
  · intro r
    rw [← r.writable_iff]
    refine ⟨whole_write_iff _ _, whole_write_iff _ _, fun writable => ⟨r.toDocument,
      Document.holds writable r.distinct, r.ofDocument?_toDocument (r.writable_iff.mp writable), rfl,
      ?_⟩⟩
    rw [← r.usages.total_eq, List.countP_eq_length_filter]
    rfl

/-- A map whose texts hold quotes, a backslash and a line end, with a search. -/
def quotedMap : DependencyMap :=
  { target := "a\"b\\.py", language := some "Python", imports := [⟨"os", .stdlib⟩, ⟨"x", .external⟩],
    importedBy := some ⟨["app.py"], 2, true⟩, notes := ["two\nlines"], suggestions := [] }

/-- The map is read again from its texts, but with a path that is no text it is cut off. -/
theorem structured_reports_lose_nothing_quoted :
    (∃ d, Holds quotedMap.renderCompact (quotedMap.render .json) d ∧
      DependencyMap.ofDocument? d = some quotedMap) ∧
    (DependencyMap.render { quotedMap with target := ⟨[0xe9]⟩ } .json).whole = false := by
  have textual : Textual quotedMap.paths := by decide
  obtain ⟨d, holds, again, _⟩ := (structured_reports_lose_nothing.1 quotedMap).2.2 textual
  have cut := (structured_reports_lose_nothing.1 { quotedMap with target := ⟨[0xe9]⟩ }).1
  refine ⟨⟨d, holds, again⟩, Bool.eq_false_iff.mpr fun whole => ?_⟩
  exact absurd (cut.mp whole) (by decide)

end Ripple
