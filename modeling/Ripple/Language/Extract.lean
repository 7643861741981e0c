import Ripple.Language.Basic
import Ripple.Text.Lines

/-!
What a language finds in a source: declared symbols in the order of their lines, imported modules in
ascending order, the extent of import statements, and whether a module is imported.
-/

namespace Ripple

namespace Visibility

/-- Decides whether a declaration is public from its name and the text of the group `vis`. -/
def isPublic (v : Visibility) (name : List Char) (vis : Option (List Char)) : Bool :=
  match v with
  | noLeadingUnderscore => name.head? != some '_'
  | capitalized => name.head?.any Unicode.isUppercase
  | exported => true
  | modifier word =>
    vis.any fun text =>
      (Text.splitBy (fun c => !(Unicode.isAlphanumeric c || c = '_')) text).contains word.toList

end Visibility

/-- The points between which a named group of a pattern matched. -/
def Pattern.group? (p : Pattern) (m : Match) (name : String) : Option (Point × Point) :=
  (p.groupIndex? name).bind m.group?

namespace ExportRule

/-- The declaration that a match stands for. -/
def symbol? (rule : ExportRule) (index : LineIndex) (m : Match) : Option Export :=
  (rule.pattern.group? m "name").map fun (start, stop) =>
    let name := start.charsTo stop
    let vis := (rule.pattern.group? m "vis").map fun g => g.1.charsTo g.2
    { name := String.ofList name
      kind := rule.kind
      line := index.lineOf start.offset
      isPublic := rule.visibility.isPublic name vis }

/-- The declarations that a pattern finds, from left to right. -/
def hits (rule : ExportRule) (text : List Char) (index : LineIndex) : List Export :=
  (rule.pattern.matchesOf text).filterMap (rule.symbol? index)

end ExportRule

namespace ExportGroup

/-- How much a character adds to the depth of brackets around what follows it. -/
def depthOf (c : Char) : Int :=
  if c = '\x7b' || c = '(' || c = '[' then 1
  else if c = '\x7d' || c = ')' || c = ']' then -1
  else 0

/-- The names that an entry of a block declares, with the offset of the first within the line. -/
def entryNames (entry : Pattern) (line : List Char) : Option (Nat × List (List Char)) :=
  ((entry.regex.search? (Point.start line)).bind fun m => entry.group? m "names").map
    fun (start, stop) =>
      (start.offset, (Text.splitOn ',' (start.charsTo stop)).map Text.trim)

/-- The declarations of a block, given by its lines. A line begins an entry only outside of all
brackets opened in the block. The depth is a number of any size; a counter of 32 bits would do for
blocks of fewer than 2147483648 characters. -/
def blockHits (entry : Pattern) (kind : SymbolKind) (index : LineIndex) :
    List (List Char) → Nat → Int → List Export
  | [], _, _ => []
  | line :: lines, offset, depth =>
    let here := if depth = 0 then
        match entryNames entry line with
        | some (start, names) => names.map fun name =>
          { name := String.ofList name
            kind := kind
            line := index.lineOf (offset + start)
            isPublic := Visibility.capitalized.isPublic name none }
        | none => []
      else []
    here ++ blockHits entry kind index lines (line.foldl (fun bytes c => bytes + c.utf8Size) offset)
      (line.foldl (fun level c => level + depthOf c) depth)

/-- The kind of symbol that the keyword of a block declares. -/
def blockKind (keyword : String) : SymbolKind :=
  if keyword = "const" then .constant
  else if keyword = "var" then .var
  else .type

/-- The declarations that a form finds, from left to right. -/
def hits (group : ExportGroup) (text : List Char) (index : LineIndex) : List Export :=
  match group with
  | nameList pattern identifier =>
    (pattern.matchesOf text).flatMap fun m =>
      match pattern.group? m "names" with
      | none => []
      | some (start, stop) =>
        let line := index.lineOf start.offset
        (Text.splitOn ',' (start.charsTo stop)).filterMap fun entry =>
          let name := Text.trim (Text.afterLast " as ".toList entry)
          if name = "default".toList || !identifier.matchesIn name then none
          else some { name := String.ofList name, kind := .var, line := line, isPublic := true }
  | block pattern entry =>
    (pattern.matchesOf text).flatMap fun m =>
      match pattern.group? m "kw", pattern.group? m "body" with
      | some kw, some (start, stop) =>
        blockHits entry (blockKind (kw.1.textTo kw.2)) index
          (Text.linePieces (start.charsTo stop)) start.offset 0
      | _, _ => []

end ExportGroup

/-- Symbols in the order of their lines; those of one line keep their order. -/
def Export.inLineOrder (symbols : List Export) : List Export :=
  symbols.mergeSort fun a b => decide (a.line ≤ b.line)

namespace ImportReading

/-- The modules that the text of a first group names. -/
def modules (reading : ImportReading) (text : List Char) : List (List Char) :=
  match reading with
  | extent => []
  | whole => [Text.trim text]
  | list => (Text.splitOn ',' (Text.trim text)).filterMap fun item => (Text.words item).head?
  | path =>
    let trimmed := Text.trim text
    [Text.stripSuffixes [':', ':'] trimmed.length trimmed]
  | quoted inner =>
    (inner.matchesOf text).filterMap fun m => (m.group? 1).map fun g => g.1.charsTo g.2

end ImportReading

namespace ImportRule

/-- The non-empty module names that a pattern finds, from left to right. -/
def modules (rule : ImportRule) (text : List Char) : List String :=
  match rule.reading with
  | .extent => []
  | reading =>
    (rule.pattern.matchesOf text).flatMap fun m =>
      match m.group? 1 with
      | none => []
      | some (start, stop) =>
        ((reading.modules (start.charsTo stop)).filter fun name => !name.isEmpty).map String.ofList

/-- The byte ranges that a pattern matches, from left to right. -/
def spans (rule : ImportRule) (text : List Char) : List (Nat × Nat) :=
  (rule.pattern.matchesOf text).map fun m => (m.start.offset, m.stop.offset)

end ImportRule

namespace Language

/-- All declarations found by the rules, rule by rule, and then by the group forms. -/
def exportHits (l : Language) (rules : List ExportRule) (text : List Char) : List Export :=
  let index := LineIndex.ofText text
  rules.flatMap (·.hits text index) ++ l.exportGroups.flatMap (·.hits text index)

/-- The symbols that a source declares, in the order of their lines, or none if the language does
not look for them. -/
def exports? (l : Language) (source : String) : Option (List Export) :=
  l.exportRules.map fun rules => Export.inLineOrder (l.exportHits rules source.toList)

/-- The distinct modules that the given rules find, in ascending order. -/
def modulesBy (rules : List ImportRule) (text : List Char) : List String :=
  Text.ascending (rules.flatMap (·.modules text))

/-- The modules that a source imports. -/
def imports (l : Language) (source : String) : List Import :=
  let text := source.toList
  let modules := modulesBy l.importRules text
  let further := (modulesBy l.localImportRules text).filter fun m => !modules.contains m
  modules.map (fun m => ⟨m, l.classify m⟩) ++
    further.map fun m => ⟨m, if l.classify m = .stdlib then .stdlib else .internal⟩

/-- The byte ranges of import statements, rule by rule. -/
def importSpans (l : Language) (source : String) : List (Nat × Nat) :=
  let text := source.toList
  (l.importRules ++ l.localImportRules).flatMap (·.spans text)

/-- The lines that a byte range touches. An empty range touches the line of its start. -/
def linesOf (index : LineIndex) (span : Nat × Nat) : List Nat :=
  let first := index.lineOf span.1
  let last := index.lineOf (Nat.max (span.2 - 1) span.1)
  List.range' first (last + 1 - first)

/-- The lines that belong to import statements, in ascending order, each once. -/
def importLines (l : Language) (source : String) : List Nat :=
  let index := LineIndex.ofText source.toList
  let lines := (l.importSpans source).flatMap (linesOf index)
  (lines.mergeSort fun a b => decide (a ≤ b)).foldr
    (fun n rest => if rest.head? = some n then rest else n :: rest) []

/-- The place of the module name in a template. -/
def placeholder : List Char := "\x7bname\x7d".toList

/-- A template with a text put in for the module name. -/
def fill (template : String) (text : String) : String :=
  String.ofList (Text.replace placeholder text.toList template.toList)

/-- The patterns for an import of a module. -/
def compileTemplates (templates : List String) (name : String) :
    Except Regex.SyntaxError (List Pattern) :=
  templates.mapM fun t => Pattern.compile (fill t (Pattern.escape name))

/-- The patterns for an import of a module in this language. -/
def dependencyPatterns (l : Language) (name : String) : Except Regex.SyntaxError (List Pattern) :=
  compileTemplates l.templates name

end Language

end Ripple
