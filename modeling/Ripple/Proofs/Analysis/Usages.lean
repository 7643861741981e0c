import Ripple.Proofs.Analysis.Tracking
import Ripple.Proofs.Language.ImportLines
import Ripple.Proofs.Language.Reading

/-!
The uses of a symbol are exact. In each dependent that can be read, the first lines are recorded that
no import statement takes in and on which the name stands as a word of its own, whatever characters
it is made of; a name is recorded if and only if it is public and has a use.
-/

namespace Ripple

open Ripple.Language

/-- A name stands in a text between two edges of words. -/
def StandsIn (name text : List Char) : Prop :=
  ∃ u v, text = u ++ (name ++ v) ∧ IsEdge u (name ++ v) ∧ IsEdge (u ++ name) v

section Words

open Regex Language.Part

theorem foundIn_edges_iff {name text : List Char} :
    FoundIn [([edge], [edge])] name text ↔ StandsIn name text := by
  constructor
  · rintro ⟨form, member, p, a, b, q, ⟨u, before⟩, first, reads, last⟩
    obtain rfl := List.mem_singleton.mp member
    -- The edges read nothing, so the name is read from where the first one is to where the last is.
    obtain ⟨rfl, starts⟩ := (takes_edge_iff before).mp first
    obtain ⟨rfl, stops⟩ := (takes_edge_iff (before.trans reads)).mp last
    have whole := before.rest_eq
    rw [reads.rest_eq] at whole starts
    exact ⟨u, q.rest, whole, starts, stops⟩
  · rintro ⟨u, v, rfl, starts, stops⟩
    obtain ⟨p, before, rest⟩ := Point.exists_reads (p := .start (u ++ (name ++ v))) rfl
    obtain ⟨q, reads, behind⟩ := Point.exists_reads rest
    refine ⟨_, List.mem_singleton_self _, p, p, q, q, ⟨u, before⟩,
      (takes_edge_iff before).mpr ⟨rfl, ?_⟩, reads,
      (takes_edge_iff (before.trans reads)).mpr ⟨rfl, ?_⟩⟩
    · rwa [rest]
    · rwa [behind]

theorem word_shapes : Shapes r"\b{name}\b" ([edge], [edge]) :=
  shapes_at_edge "" r"\b" 0 1 rfl rfl rfl (fun _ _ => rfl) (fun _ _ => rfl) (fun _ => rfl) rfl rfl
    (by decide)

/-- The pattern for a name finds the name as a word of its own; only a name that is too long has no
pattern. -/
theorem wordPattern_cases (name : String) :
    (∃ pattern, Engine.wordPattern name = .ok pattern ∧
      ∀ text, pattern.matchesIn text = true ↔ StandsIn name.toList text) ∨
    (∃ error, Engine.wordPattern name = .error error) ∧ 100000 < Point.size name.toList := by
  have source : "\\b" ++ Pattern.escape name ++ "\\b" = fill r"\b{name}\b" (Pattern.escape name) := by
    have text : r"\b{name}\b" = String.ofList (['\\', 'b'] ++ (placeholder ++ ['\\', 'b'])) := rfl
    apply String.toList_inj.mp
    rw [toList_fill text (by decide), String.toList_append, String.toList_append, List.append_assoc]
    rfl
  rw [Engine.wordPattern, source]
  rcases word_shapes.fills name with ⟨names, compiled⟩ | ⟨refused, big⟩
  · refine .inl ⟨_, compiled, fun text => ?_⟩
    rw [Pattern.matchesIn, Form.matchesIn_filled_iff (by decide), foundIn_edges_iff]
  · exact .inr ⟨⟨_, refused⟩, Form.size_of_tooBig (by decide) big⟩

end Words

section Lines

/-- Taking away numbers from consecutively numbered lines leaves the others. -/
theorem Engine.dropNumbered_eq {numbers : List Nat} (ascends : numbers.Pairwise (· < ·)) {n : Nat}
    (behind : ∀ m ∈ numbers, n ≤ m) {lines : List (Nat × List Char)}
    (consecutive : lines.map (·.1) = List.range' n lines.length) (kept : List (Nat × List Char)) :
    dropNumbered numbers lines kept =
      (lines.filter fun line => line.1 ∉ numbers).reverse ++ kept := by
  induction lines generalizing numbers n kept with
  | nil => cases numbers <;> rfl
  | cons line rest ih =>
    rw [List.map_cons, List.length_cons, List.range'_succ, List.cons.injEq] at consecutive
    obtain ⟨first, others⟩ := consecutive
    have later : ∀ line ∈ rest, n < line.1 := by
      intro line member
      have number : line.1 ∈ rest.map (·.1) := List.mem_map_of_mem member
      rw [others, List.mem_range'_1] at number
      omega
    cases numbers with
    | nil =>
      rw [dropNumbered, ih .nil (by simp) others]
      simp
    | cons m numbers =>
      obtain ⟨smallest, ascends'⟩ := List.pairwise_cons.mp ascends
      have least := behind m List.mem_cons_self
      rw [dropNumbered]
      split
      next same =>
        -- The numbers behind this line are larger than the one that is taken away.
        have rest_eq : rest.filter (fun line => line.1 ∉ m :: numbers) =
            rest.filter fun line => line.1 ∉ numbers := by
          refine List.filter_congr fun line member => ?_
          have := later line member
          have differs : line.1 ≠ m := by omega
          simp [differs]
        rw [List.filter_cons_of_neg (by simp [same]), rest_eq]
        refine ih ascends' (fun k member => ?_) others kept
        have := smallest k member
        omega
      next differs =>
        -- The least number has not been reached yet, so the line has none of them.
        have absent : line.1 ∉ m :: numbers := by
          intro member
          rcases List.mem_cons.mp member with same | member
          · exact differs same
          · have := smallest _ member
            omega
        rw [List.filter_cons_of_pos (by simpa using absent), List.reverse_cons, List.append_assoc]
        refine ih ascends (fun k member => ?_) others (line :: kept)
        have := behind k member
        rcases List.mem_cons.mp member with rfl | member
        · omega
        · have := smallest k member
          omega

theorem Engine.reverse_dropNumbered {numbers : List Nat} (ascends : numbers.Pairwise (· < ·))
    (positive : ∀ n ∈ numbers, 1 ≤ n) (text : List Char) :
    (dropNumbered numbers (((Text.lines text).zipIdx 1).map fun l => (l.2, l.1)) []).reverse =
      ((Line.all text).filter fun line => line.number ∉ numbers).map
        fun line => (line.number, line.content) := by
  have consecutive : ((Line.all text).map fun line => (line.number, line.content)).map (·.1) =
      List.range' 1 ((Line.all text).map fun line => (line.number, line.content)).length := by
    rw [List.map_map, List.length_map]
    exact Line.map_number_all text
  rw [Line.zipIdx_lines, dropNumbered_eq ascends positive consecutive, List.append_nil,
    List.reverse_reverse, List.filter_map]
  rfl

end Lines

namespace Engine

/-- A line of a source on which a symbol is used. -/
structure IsUse (e : Engine) (path : OsString) (source name : String) (line : Line) : Prop where
  inSource : line.Of source.toList
  /-- No import statement of the file's language takes in a byte of the line. -/
  outside : ∀ l, e.table.ofPath? path = some l → ∀ span ∈ l.importSpans source, ¬ line.TouchedBy span
  /-- Names for which a pattern would be too big are not looked for. -/
  searchable : ∃ pattern, wordPattern name = .ok pattern
  named : StandsIn name.toList line.content

/-- What is recorded about a line of a file. -/
structure Records (width : Nat) (file : OsString) (line : Line) (use : Usage) : Prop where
  file_eq : use.file = file
  line_eq : use.line = line.number
  snippet_eq : ∃ trimmed, Text.IsTrimmed line.content trimmed ∧
    use.snippet = String.ofList (trimmed.take width)

/-- The uses of a symbol in a file below the root: the first lines on which it is used, in ascending
order, or none if the file cannot be read. -/
def AreUses (e : Engine) (fs : Files) (root : List OsString) (name : String) (file : OsString)
    (uses : List Usage) : Prop :=
  match fs.readText (Path.join (Files.pathOf root) file) with
  | .error _ => uses = []
  | .ok source => ∃ lines : List Line, lines.Pairwise (fun a b => a.number < b.number) ∧
    (∀ line, line ∈ lines ↔ e.IsUse (Path.join (Files.pathOf root) file) source name line) ∧
    List.Forall₂ (Records e.settings.snippetWidth file) (lines.take e.settings.usageLimit) uses

section File

variable (e : Engine) {fs : Files} {root : List OsString} {file : OsString} {source : String}

/-- The numbers of the lines that import statements take in. -/
def skipped (e : Engine) (path : OsString) (source : String) : List Nat :=
  match e.table.ofPath? path with
  | some l => l.importLines source
  | none => []

theorem number_mem_skipped_iff {path : OsString} {line : Line} (inSource : line.Of source.toList) :
    line.number ∈ e.skipped path source ↔
      ∃ l, e.table.ofPath? path = some l ∧ ∃ span ∈ l.importSpans source, line.TouchedBy span := by
  unfold skipped
  cases e.table.ofPath? path with
  | none => simp
  | some l => simp [number_mem_importLines_iff l inSource]

theorem usableLines_eq (read : fs.readText (Path.join (Files.pathOf root) file) = .ok source) :
    e.usableLines fs root file = ((Line.all source.toList).filter fun line =>
      line.number ∉ e.skipped (Path.join (Files.pathOf root) file) source).map
        fun line => (line.number, line.content) := by
  -- `unfold`: the equations of the two definitions are costly to derive.
  unfold usableLines skipped
  simp only [read]
  cases e.table.ofPath? (Path.join (Files.pathOf root) file) with
  | none => exact reverse_dropNumbered .nil (by simp) source.toList
  | some l =>
    exact reverse_dropNumbered (importLines_ascends l source)
      (fun _ => pos_of_mem_importLines) source.toList

/-- The lines outside of import statements on which a pattern matches. -/
def useLines (e : Engine) (path : OsString) (source : String) (pattern : Pattern) : List Line :=
  ((Line.all source.toList).filter fun line => line.number ∉ e.skipped path source).filter
    fun line => pattern.matchesIn line.content

theorem mem_useLines_iff {path : OsString} {name : String} {pattern : Pattern}
    (compiled : wordPattern name = .ok pattern)
    (finds : ∀ text, pattern.matchesIn text = true ↔ StandsIn name.toList text) {line : Line} :
    line ∈ e.useLines path source pattern ↔ e.IsUse path source name line := by
  rw [useLines, List.mem_filter, List.mem_filter, Line.mem_all_iff, finds, decide_eq_true_eq]
  constructor
  · rintro ⟨⟨inSource, free⟩, named⟩
    rw [number_mem_skipped_iff e inSource] at free
    exact ⟨inSource, fun l written span listed touched => free ⟨l, written, span, listed, touched⟩,
      ⟨pattern, compiled⟩, named⟩
  · rintro ⟨inSource, outside, _, named⟩
    refine ⟨⟨inSource, fun member => ?_⟩, named⟩
    obtain ⟨l, written, span, listed, touched⟩ := (number_mem_skipped_iff e inSource).mp member
    exact outside l written span listed touched

theorem areUses_usesIn {name : String} {pattern : Pattern}
    (compiled : wordPattern name = .ok pattern)
    (finds : ∀ text, pattern.matchesIn text = true ↔ StandsIn name.toList text) (fs : Files)
    (root : List OsString) (file : OsString) :
    e.AreUses fs root name file (usesIn e.settings pattern file (e.usableLines fs root file)) := by
  unfold AreUses
  split
  next cause unreadable =>
    unfold usableLines
    simp [unreadable, usesIn]
  next source read =>
    refine ⟨e.useLines (Path.join (Files.pathOf root) file) source pattern,
      ((Line.all_ascends source.toList).filter _).filter _,
      fun line => mem_useLines_iff e compiled finds, ?_⟩
    rw [usableLines_eq e read, usesIn, List.filter_map, ← List.map_take, List.map_map,
      List.forall₂_map_right_iff]
    refine List.forall₂_same.mpr fun line _ => ?_
    exact ⟨rfl, rfl, _, Text.trim_isTrimmed line.content, rfl⟩

theorem areUses_nil {name : String} (unsearchable : ∀ pattern, wordPattern name ≠ .ok pattern)
    (fs : Files) (root : List OsString) (file : OsString) : e.AreUses fs root name file [] := by
  unfold AreUses
  split
  next => rfl
  next source _ =>
    refine ⟨[], .nil, fun line => ?_, by simp⟩
    simp only [List.not_mem_nil, false_iff]
    rintro ⟨_, _, ⟨pattern, compiled⟩, _⟩
    exact unsearchable pattern compiled

end File

theorem usesAcross_areUses (e : Engine) (fs : Files) (root : List OsString) (files : List OsString)
    (name : String) :
    ∃ parts, List.Forall₂ (e.AreUses fs root name) files parts ∧
      e.usesAcross fs root files name = parts.flatten := by
  rcases wordPattern_cases name with ⟨pattern, compiled, finds⟩ | ⟨⟨cause, refused⟩, _⟩
  · refine ⟨files.map fun file => usesIn e.settings pattern file (e.usableLines fs root file), ?_, ?_⟩
    · rw [List.forall₂_map_right_iff, List.forall₂_same]
      exact fun file _ => areUses_usesIn e compiled finds fs root file
    · simp only [usesAcross, compiled, List.flatMap_def]
  · -- A name without a pattern has no uses, in whatever files.
    refine ⟨files.map fun _ => [], ?_, ?_⟩
    · rw [List.forall₂_map_right_iff, List.forall₂_same]
      exact fun file _ => areUses_nil e (by simp [refused]) fs root file
    · simp [usesAcross, refused]

/-- The public symbols with uses, and no others, are mapped to what is recorded about them: the uses
in the dependents, one after the other. Only a name that is very long is not looked for. -/
theorem trackUsages_exact (e : Engine) (fs : Files) (root : List OsString) (exports : List Export)
    (dependents : List OsString) (name : String) :
    ∃ parts : List (List Usage), List.Forall₂ (e.AreUses fs root name) dependents parts ∧
      (∀ uses, (e.trackUsages fs root exports dependents).entries.lookup name = some uses ↔
        (∃ x ∈ exports, x.isPublic = true ∧ x.name = name) ∧ uses = parts.flatten ∧ uses ≠ []) ∧
      (Point.size name.toList ≤ 100000 → ∃ pattern, wordPattern name = .ok pattern) := by
  obtain ⟨parts, each, whole⟩ := usesAcross_areUses e fs root dependents name
  have isPublic : name ∈ publicNames exports ↔ ∃ x ∈ exports, x.isPublic = true ∧ x.name = name := by
    rw [publicNames, Text.mem_ascending]
    simp [and_assoc]
  have ascends : (publicNames exports).Pairwise (· < ·) := Text.ascending_ascends _
  refine ⟨parts, each, fun uses => ?_, fun short => ?_⟩
  · rw [trackUsages_eq, UsageMap.lookup_ofNames ascends, whole, isPublic]
  · rcases wordPattern_cases name with ⟨pattern, compiled, _⟩ | ⟨_, long⟩
    · exact ⟨pattern, compiled⟩
    · omega

end Engine

end Ripple
