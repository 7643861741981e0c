import Ripple.Analysis.Dependents

/-!
Uses of public symbols in the files that depend on them. A use is a line, outside of import
statements, on which the name stands as a word of its own.
-/

namespace Ripple

/-- A line on which a symbol is used. -/
structure Usage where
  file : OsString
  line : Nat
  /-- The beginning of the line, without the blanks around it. -/
  snippet : String
  deriving DecidableEq, Repr

/-- The uses of each symbol, in ascending order of the names. -/
structure UsageMap where
  entries : List (String × List Usage)
  ordered : entries.Pairwise fun a b => a.1 < b.1
  deriving DecidableEq, Repr

namespace UsageMap

/-- Puts an entry in its place. One with the same name gives way. -/
def insertEntry (e : String × List Usage) :
    List (String × List Usage) → List (String × List Usage)
  | [] => [e]
  | x :: rest =>
    if e.1 < x.1 then e :: x :: rest
    else if e.1 = x.1 then e :: rest
    else x :: insertEntry e rest

theorem mem_of_mem_insertEntry {e x : String × List Usage} {l : List (String × List Usage)}
    (member : x ∈ insertEntry e l) : x = e ∨ x ∈ l := by
  induction l with
  | nil => simpa [insertEntry] using member
  | cons y rest ih =>
    simp only [insertEntry] at member
    split at member
    · simpa using member
    · split at member <;> simp only [List.mem_cons] at member ⊢
      · exact member.imp id .inr
      · rcases member with here | member
        · exact .inr (.inl here)
        · exact (ih member).imp id .inr

theorem insertEntry_ordered (e : String × List Usage) {l : List (String × List Usage)}
    (ordered : l.Pairwise fun a b => a.1 < b.1) :
    (insertEntry e l).Pairwise fun a b => a.1 < b.1 := by
  induction l with
  | nil => simp [insertEntry]
  | cons x rest ih =>
    obtain ⟨first, others⟩ := List.pairwise_cons.mp ordered
    simp only [insertEntry]
    split
    next below =>
      refine List.pairwise_cons.mpr ⟨fun y member => ?_, ordered⟩
      rcases List.mem_cons.mp member with rfl | member
      · exact below
      · exact String.lt_trans below (first y member)
    next notBelow =>
      split
      next same =>
        exact List.pairwise_cons.mpr ⟨fun y member => same ▸ first y member, others⟩
      next differs =>
        refine List.pairwise_cons.mpr ⟨fun y member => ?_, ih others⟩
        rcases mem_of_mem_insertEntry member with rfl | member
        · exact String.not_le.mp fun above =>
            differs (String.le_antisymm above (String.not_lt.mp notBelow))
        · exact first y member

def empty : UsageMap := ⟨[], .nil⟩

/-- Sets the uses of a symbol. -/
def insert (m : UsageMap) (name : String) (uses : List Usage) : UsageMap :=
  ⟨insertEntry (name, uses) m.entries, insertEntry_ordered _ m.ordered⟩

/-- The map with the given entries, of which the first counts where two have the same name. -/
def ofList (entries : List (String × List Usage)) : UsageMap :=
  entries.foldr (fun e m => m.insert e.1 e.2) empty

/-- The number of all recorded uses. -/
def total (m : UsageMap) : Nat := (m.entries.flatMap (·.2)).length

end UsageMap

namespace Engine

/-- The text between the first and the last character of a line that are not blank, cut to a number
of characters. -/
def snippet (width : Nat) (line : List Char) : String :=
  String.ofList ((Text.trim line).take width)

/-- The pattern for a name as a word of its own. -/
def wordPattern (name : String) : Except Regex.SyntaxError Pattern :=
  Pattern.compile ("\\b" ++ Pattern.escape name ++ "\\b")

/-- Takes away the lines with the given numbers. Both lists ascend; the lines that stay are put in
front of `kept` in reverse. -/
def dropNumbered : List Nat → List (Nat × List Char) → List (Nat × List Char) →
    List (Nat × List Char)
  | _, [], kept => kept
  | [], line :: rest, kept => dropNumbered [] rest (line :: kept)
  | n :: numbers, line :: rest, kept =>
    if line.1 = n then dropNumbered numbers rest kept
    else dropNumbered (n :: numbers) rest (line :: kept)

/-- The numbered lines of a file that do not belong to import statements. A file that cannot be read
has none. -/
def usableLines (e : Engine) (fs : Files) (root : List OsString) (file : OsString) :
    List (Nat × List Char) :=
  let path := Path.join (Files.pathOf root) file
  match fs.readText path with
  | .error _ => []
  | .ok source =>
    let skipped := match e.table.ofPath? path with
      | some l => l.importLines source
      | none => []
    let numbered := (Text.lines source.toList).zipIdx 1 |>.map fun l => (l.2, l.1)
    (dropNumbered skipped numbered []).reverse

/-- The first uses in a file, given by its lines. -/
def usesIn (s : Settings) (pattern : Pattern) (file : OsString) (lines : List (Nat × List Char)) :
    List Usage :=
  ((lines.filter fun l => pattern.matchesIn l.2).take s.usageLimit).map fun l =>
    ⟨file, l.1, snippet s.snippetWidth l.2⟩

/-- The uses of the public symbols in the dependent files, file by file. Symbols without any use are
left out. -/
def trackUsages (e : Engine) (fs : Files) (root : List OsString) (exports : List Export)
    (dependents : List OsString) : UsageMap :=
  let names := Text.ascending ((exports.filter (·.isPublic)).map (·.name))
  let sources := dependents.map fun file => (file, e.usableLines fs root file)
  .ofList <| names.filterMap fun name =>
    match wordPattern name with
    | .error _ => none
    | .ok pattern =>
      let uses := sources.flatMap fun s => usesIn e.settings pattern s.1 s.2
      if uses.isEmpty then none else some (name, uses)

end Engine

end Ripple
