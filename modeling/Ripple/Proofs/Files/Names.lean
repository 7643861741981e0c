import Ripple.Files.Tree
import Ripple.Proofs.Regex.Points
import Ripple.Proofs.Text.OsString
import Ripple.Proofs.Text.Pieces

/-!
Names of files, and the paths that are made of them. Written as a path and read again, a list of
names comes back unchanged.
-/

namespace Ripple

/-- The number of bytes of a text. -/
theorem OsString.length_bytes_ofText (text : String) :
    (ofText text).bytes.length = Point.size text.toList := by
  rw [bytes_ofText]
  induction text.toList with
  | nil => rfl
  | cons c cs ih =>
    rw [Text.bytes_cons, List.length_append, ih, String.length_utf8EncodeChar, Point.size_cons]

namespace Path

/-- A name that an entry of a directory can have. -/
structure IsName (name : OsString) : Prop where
  nonempty : name ≠ ""
  noDot : name ≠ "."
  noDots : name ≠ ".."
  noSlash : slash ∉ name.bytes
  noNul : 0 ∉ name.bytes
  /-- The limit that file systems set. -/
  short : name.bytes.length ≤ Files.maxName

instance (name : OsString) : Decidable (IsName name) :=
  decidable_of_iff (name ≠ "" ∧ name ≠ "." ∧ name ≠ ".." ∧ slash ∉ name.bytes ∧ 0 ∉ name.bytes ∧
      name.bytes.length ≤ Files.maxName)
    ⟨fun ⟨a, b, c, d, e, f⟩ => ⟨a, b, c, d, e, f⟩, fun ⟨a, b, c, d, e, f⟩ => ⟨a, b, c, d, e, f⟩⟩

theorem IsName.bytes_ne_nil {name : OsString} (isName : IsName name) : name.bytes ≠ [] := by
  intro none
  apply isName.nonempty
  obtain ⟨bytes⟩ := name
  exact congrArg OsString.mk none

theorem bytes_ofComponents_cons (name next : OsString) (names : List OsString) :
    (ofComponents (name :: next :: names)).bytes =
      name.bytes ++ slash :: (ofComponents (next :: names)).bytes := by
  rw [ofComponents, List.map_cons, List.map_cons, List.intercalate_cons_cons, List.append_assoc]
  rfl

theorem ofComponents_singleton (name : OsString) : ofComponents [name] = name := by
  rw [ofComponents, List.map_singleton, List.intercalate_singleton]

/-- Between two parts of a path stands a slash. -/
theorem bytes_ofComponents_append {as bs : List OsString} (someA : as ≠ []) (someB : bs ≠ []) :
    (ofComponents (as ++ bs)).bytes =
      (ofComponents as).bytes ++ slash :: (ofComponents bs).bytes := by
  obtain ⟨next, rest, rfl⟩ := List.exists_cons_of_ne_nil someB
  induction as with
  | nil => contradiction
  | cons name names ih =>
    cases names with
    | nil => rw [List.singleton_append, bytes_ofComponents_cons, ofComponents_singleton]
    | cons name' names =>
      have rest := ih (by simp)
      rw [List.cons_append] at rest
      rw [List.cons_append, List.cons_append, bytes_ofComponents_cons, rest,
        bytes_ofComponents_cons, List.append_assoc, List.cons_append]

/-- The pieces of names with slashes between them are the names. -/
theorem splitOn_ofComponents {names : List OsString} (some : names ≠ [])
    (valid : ∀ name ∈ names, slash ∉ name.bytes) :
    Text.splitOn slash (ofComponents names).bytes = names.map (·.bytes) := by
  have apart : ∀ name ∈ names, ∀ b ∈ name.bytes, decide (b = slash) = false := by
    rintro name listed b here
    rw [decide_eq_false_iff_not]
    rintro rfl
    exact valid name listed here
  clear valid
  induction names with
  | nil => contradiction
  | cons name names ih =>
    simp only [List.mem_cons, forall_eq_or_imp] at apart
    cases names with
    | nil =>
      rw [ofComponents_singleton]
      exact Text.splitBy_of_fail apart.1
    | cons next names =>
      -- Names have no slashes, so the first slash is the one behind the first name.
      rw [bytes_ofComponents_cons, List.map_cons, ← ih (by simp) apart.2]
      exact Text.splitBy_append apart.1 (by simp)

theorem components_ofComponents {names : List OsString} (valid : ∀ name ∈ names, IsName name) :
    components (ofComponents names) = names := by
  cases names with
  | nil => rfl
  | cons name names =>
    rw [components, splitOn_ofComponents (by simp) fun n listed => (valid n listed).noSlash,
      List.filter_eq_self.mpr]
    · simp [Function.comp_def]
    · intro bytes piece
      obtain ⟨n, listed, rfl⟩ := List.mem_map.mp piece
      have notDot : n.bytes ≠ [dot] := fun same =>
        (valid n listed).noDot (congrArg OsString.mk same)
      simp [notDot, (valid n listed).bytes_ne_nil]

/-- A path of names has no zero in it. -/
theorem nul_not_mem_ofComponents {names : List OsString} (valid : ∀ name ∈ names, IsName name) :
    0 ∉ (ofComponents names).bytes := by
  induction names with
  | nil => decide
  | cons name names ih =>
    obtain ⟨first, others⟩ := List.forall_mem_cons.mp valid
    cases names with
    | nil =>
      rw [ofComponents_singleton]
      exact first.noNul
    | cons next names =>
      rw [bytes_ofComponents_cons, List.mem_append, List.mem_cons, not_or, not_or]
      exact ⟨first.noNul, by decide, ih others⟩

end Path

namespace Files

open Ripple.Path

theorem bytes_pathOf (names : List OsString) :
    (pathOf names).bytes = slash :: (ofComponents names).bytes := rfl

/-- The pieces of an absolute path: nothing before the first slash, and the names. -/
theorem splitOn_pathOf {names : List OsString} (some : names ≠ [])
    (valid : ∀ name ∈ names, IsName name) :
    Text.splitOn slash (pathOf names).bytes = [] :: names.map (·.bytes) := by
  rw [bytes_pathOf, ← splitOn_ofComponents some fun n listed => (valid n listed).noSlash]
  exact Text.splitBy_append (u := []) (by simp) (by simp)

theorem components_pathOf {names : List OsString} (valid : ∀ name ∈ names, IsName name) :
    components (pathOf names) = names := by
  have split : Text.splitOn slash (slash :: (ofComponents names).bytes) =
      [] :: Text.splitOn slash (ofComponents names).bytes :=
    Text.splitBy_append (u := []) (by simp) (by simp)
  have same : components (pathOf names) = components (ofComponents names) := by
    rw [components, bytes_pathOf, split]
    rfl
  rw [same, components_ofComponents valid]

theorem isAbsolute_pathOf (names : List OsString) : isAbsolute (pathOf names) = true := by
  simp [isAbsolute, bytes_pathOf]

theorem steps_pathOf {names : List OsString} (some : names ≠ [])
    (valid : ∀ name ∈ names, IsName name) : steps (pathOf names) = names := by
  obtain ⟨init, last, rfl⟩ := (List.eq_nil_or_concat' names).resolve_left some
  have ends : last ≠ "" := (valid last (by simp)).nonempty
  have solid : ∀ name ∈ init ++ [last], (name != ("" : OsString)) = true := fun n listed => by
    simpa using (valid n listed).nonempty
  have pieces : ([] :: (init ++ [last]).map (·.bytes)).map OsString.mk =
      ("" : OsString) :: (init ++ [last]) := by
    have empty : OsString.mk [] = "" := rfl
    simp [Function.comp_def, empty]
  rw [steps, splitOn_pathOf some valid, pieces, List.filter_cons_of_neg (by simp),
    List.filter_eq_self.mpr solid]
  simp [List.getLast?_cons, ends]

theorem nul_not_mem_pathOf {names : List OsString} (valid : ∀ name ∈ names, IsName name) :
    (pathOf names).bytes.contains 0 = false := by
  rw [Bool.eq_false_iff, ne_eq, List.contains_iff_mem, bytes_pathOf, List.mem_cons, not_or]
  exact ⟨by decide, nul_not_mem_ofComponents valid⟩

/-- A path below a directory stands for the location below its location. -/
theorem join_pathOf {root below : List OsString} (some : below ≠ [])
    (valid : ∀ name ∈ root ++ below, IsName name) :
    join (pathOf root) (ofComponents below) = pathOf (root ++ below) := by
  have inRoot : ∀ name ∈ root, IsName name := fun n listed => valid n (by simp [listed])
  -- A path that begins with a name does not begin with a slash.
  have relative : isAbsolute (ofComponents below) = false := by
    obtain ⟨name, names, rfl⟩ := List.exists_cons_of_ne_nil some
    have first := valid name (by simp)
    obtain ⟨b, bs, shape⟩ := List.exists_cons_of_ne_nil first.bytes_ne_nil
    have apart : b ≠ slash := fun same => first.noSlash (by simp [shape, same])
    cases names with
    | nil => simp [isAbsolute, ofComponents_singleton, shape, apart]
    | cons next names => simp [isAbsolute, bytes_ofComponents_cons, shape, apart]
  rw [join, relative, bytes_pathOf]
  rcases List.eq_nil_or_concat' root with rfl | ⟨dirs, dir, rfl⟩
  · rfl
  · -- A path ends with its last name, so a slash has to be put behind it.
    have last := inRoot dir (by simp)
    have unslashed : (slash :: (ofComponents (dirs ++ [dir])).bytes).getLast? ≠ Option.some slash := by
      have ending : ∃ front, slash :: (ofComponents (dirs ++ [dir])).bytes = front ++ dir.bytes := by
        rcases eq_or_ne dirs [] with rfl | more
        · exact ⟨[slash], by rw [List.nil_append, ofComponents_singleton]; rfl⟩
        · refine ⟨slash :: ((ofComponents dirs).bytes ++ [slash]), ?_⟩
          rw [bytes_ofComponents_append more (by simp), ofComponents_singleton]
          simp
      obtain ⟨front, shape⟩ := ending
      rw [shape, List.getLast?_append_of_ne_nil _ last.bytes_ne_nil]
      exact fun ends => last.noSlash (List.mem_of_getLast? ends)
    have whole := @bytes_ofComponents_append (dirs ++ [dir]) below (by simp) some
    rw [if_neg (by simp), if_neg (by simpa using unslashed), pathOf, pathOf]
    apply congrArg OsString.mk
    rw [whole]
    simp

/-- The name of a file is the last name of its location. -/
theorem fileName?_pathOf {names : List OsString} (valid : ∀ name ∈ names, IsName name) :
    fileName? (pathOf names) = names.getLast? := by
  rw [fileName?, components_pathOf valid]
  cases last : names.getLast? with
  | none => rfl
  | some name => simp [(valid name (List.mem_of_getLast? last)).noDots]

/-- The stem of a name is no longer than the name. -/
theorem length_stem_le (name : OsString) :
    (splitName name).1.bytes.length ≤ name.bytes.length := by
  rw [splitName]
  split
  next b before shape =>
    have whole := congrArg List.length (List.take_append_drop
      (name.bytes.reverse.takeWhile (· ≠ dot)).length name.bytes.reverse)
    rw [shape] at whole
    simp only [List.length_append, List.length_cons, List.length_reverse] at whole ⊢
    omega
  next => exact Nat.le_refl _

theorem stem_short {names : List OsString} {stem : String} (valid : ∀ name ∈ names, IsName name)
    (stemmed : textStem? (pathOf names) = some stem) : Point.size stem.toList ≤ maxName := by
  rw [textStem?, stem?, fileName?_pathOf valid] at stemmed
  obtain ⟨part, named, encoded⟩ := Option.bind_eq_some_iff.mp stemmed
  obtain ⟨name, last, rfl⟩ := Option.map_eq_some_iff.mp named
  have short := (valid name (List.mem_of_getLast? last)).short
  have shorter := length_stem_le name
  rw [OsString.text?_eq_some_iff.mp encoded, OsString.length_bytes_ofText] at shorter
  exact Nat.le_trans shorter short

end Files

end Ripple
