import Ripple.Language.Definition
import Ripple.Proofs.Files.Walking
import Ripple.Proofs.Text.Encoding

/-!
The listing of a walk that does not look at ignore files. A file is in it if it is not hidden, not
below a directory that is skipped, and of an accepted extension and size; and the listing is in the
order of the bytes of the names.
-/

namespace Ripple

open Node Ripple.Path

/-- The names on a path as bytes. -/
def Path.nameBytes (names : List OsString) : List (List UInt8) := names.map (·.bytes)

theorem Path.nameBytes_lt {ps qs : List OsString} (less : ps < qs) : nameBytes ps < nameBytes qs :=
  List.map_lt (fun _ _ below => below) less

namespace WalkFilter

/-- The names of the directories that are not entered. -/
def skipNames (f : WalkFilter) : List OsString := f.skipDirs.map OsString.ofText

theorem skips_iff {f : WalkFilter} {name : OsString} : f.skips name = true ↔ name ∈ f.skipNames := by
  rw [skips, Option.any_eq_true, skipNames, List.mem_map]
  simp only [List.contains_iff_mem, OsString.text?_eq_some_iff]
  constructor
  · rintro ⟨text, rfl, listed⟩
    exact ⟨text, listed, rfl⟩
  · rintro ⟨text, listed, rfl⟩
    exact ⟨text, rfl, listed⟩

/-- Without ignore files an entry is left out if it is hidden or a directory to be skipped. -/
theorem admits_nil_iff {f : WalkFilter} {here : List OsString} {name : OsString} {node : Node} :
    f.admits [] (here ++ [name]) node = true ↔ name.bytes.head? ≠ some dot ∧
      (node.kind = .dir → name ∉ f.skipNames) := by
  rw [← skips_iff]
  cases node <;> simp [admits, verdict?, kind]

theorem acceptsSize_iff {f : WalkFilter} {size : Nat} :
    f.acceptsSize size = true ↔ ∀ limit, f.maxFileSize = some limit → size ≤ limit := by
  cases limited : f.maxFileSize <;> simp [acceptsSize, limited]

end WalkFilter

/-- There is no dot behind the last dot of a name. -/
theorem Path.dot_not_mem_extension {name ext : OsString} (found : (splitName name).2 = some ext) :
    dot ∉ ext.bytes := by
  rw [splitName] at found
  split at found
  next =>
    obtain rfl := Option.some.inj found
    intro here
    simp only [List.mem_reverse] at here
    simpa using List.all_eq_true.mp List.all_takeWhile dot here
  next => cases found

theorem Path.normalExtension_of_text {path : OsString} {ext : String}
    (found : textExtension? path = some ext) :
    Language.normalExtension ext = String.ofList (ext.toList.map Char.toLower) := by
  obtain ⟨encoded, split, decoded⟩ := Option.bind_eq_some_iff.mp found
  obtain ⟨name, _, split⟩ := Option.bind_eq_some_iff.mp split
  have noDot := dot_not_mem_extension split
  rw [OsString.text?_eq_some_iff.mp decoded, OsString.bytes_ofText] at noDot
  have kept : ext.toList.dropWhile (· = '.') = ext.toList := by
    cases shape : ext.toList with
    | nil => rfl
    | cons c cs =>
      have first : c ≠ '.' := by
        rintro rfl
        -- A dot is encoded by itself.
        rw [shape, Text.bytes_cons] at noDot
        exact noDot (List.mem_append_left _ (by decide))
      rw [List.dropWhile_cons_of_neg (by simpa using first)]
  rw [Language.normalExtension, kept]

/-- The extension of a file is that of the last name on its path. -/
theorem Files.textExtension?_pathOf {names : List OsString} (valid : ∀ name ∈ names, IsName name) :
    textExtension? (pathOf names) = textExtension? (names.getLast?.getD "") := by
  rw [textExtension?, textExtension?, extension?, extension?, fileName?_pathOf valid]
  cases last : names.getLast? with
  | none => rfl
  | some name =>
    have isName := valid name (List.mem_of_getLast? last)
    have alone : components name = [name] := by
      have parts := @components_ofComponents [name] (by simpa using isName)
      rwa [ofComponents_singleton] at parts
    simp [fileName?, alone, isName.noDots]

theorem WalkFilter.acceptsExtension_iff {f : WalkFilter} {names : List OsString}
    (valid : ∀ name ∈ names, IsName name) :
    f.acceptsExtension (names.getLast?.getD "") = true ↔ f.extensions = [] ∨
      ∃ ext, textExtension? (Files.pathOf names) = some ext ∧
        ∃ e ∈ f.extensions, Language.normalExtension ext = Language.normalExtension e := by
  rw [acceptsExtension, ← Files.textExtension?_pathOf valid]
  cases found : textExtension? (Files.pathOf names) with
  | none => simp
  | some ext =>
    have compares : ∀ e, Language.normalExtension ext = Language.normalExtension e ↔
        (e.toList.dropWhile (· = '.')).map Char.toLower = ext.toList.map Char.toLower := by
      intro e
      rw [normalExtension_of_text found, Language.normalExtension, String.ofList_inj, eq_comm]
    simp [compares]

namespace Files

/-- What the listing of a walk without ignore files is to hold. -/
structure Lists (fs : Files) (f : WalkFilter) (root below : List OsString) : Prop where
  file : ∃ content, fs.kindAt? (root ++ below) = some (.file content) ∧
    ∀ limit, f.maxFileSize = some limit → content.size ≤ limit
  shown : ∀ name ∈ below, name.bytes.head? ≠ some dot
  entered : ∀ name ∈ below.dropLast, name ∉ f.skipNames
  extension : f.extensions = [] ∨ ∃ ext, textExtension? (pathOf (root ++ below)) = some ext ∧
    ∃ e ∈ f.extensions, Language.normalExtension ext = Language.normalExtension e
  kept : f.exclude ≠ some (root ++ below)

/-- On the way to a file the last name is that of the file, and the others are names of
directories. -/
theorem exists_step {fs : Files} {root here rest : List OsString} {name : OsString}
    {content : ByteArray}
    (found : fs.kindAt? (root ++ (here ++ name :: rest)) = some (.file content)) :
    ∃ node, fs.top.at? (root ++ (here ++ [name])) = some node ∧ (node.kind = .dir ↔ rest ≠ []) := by
  cases rest with
  | nil => exact ⟨_, kindAt?_eq_file.mp found, by simp [kind]⟩
  | cons next rest =>
    rw [← List.singleton_append, ← List.append_assoc here, ← List.append_assoc] at found
    obtain ⟨entries, dir⟩ := kindAt?_eq_dir.mp (isDir_above (by simp) found)
    exact ⟨_, dir, by simp [kind]⟩

/-- Without ignore files the steps to a file are admitted if no name is hidden and none of the
directories is skipped. -/
theorem admitted_iff {fs : Files} {f : WalkFilter} (plain : f.honourIgnoreFiles = false)
    {root here rest : List OsString} {content : ByteArray}
    (found : fs.kindAt? (root ++ (here ++ rest)) = some (.file content)) :
    fs.Admitted f root here rest ↔ (∀ name ∈ rest, name.bytes.head? ≠ some dot) ∧
      ∀ name ∈ rest.dropLast, name ∉ f.skipNames := by
  induction rest generalizing here with
  | nil => simp [Admitted]
  | cons name rest ih =>
    have noScopes : fs.scopesOf f root here = [] := by simp [scopesOf, plain]
    obtain ⟨node, atName, isDir⟩ := exists_step found
    rw [← List.singleton_append, ← List.append_assoc here] at found
    have step : (∀ node, fs.top.at? (root ++ (here ++ [name])) = some node →
        f.admits (fs.scopesOf f root here) (here ++ [name]) node = true) ↔
        name.bytes.head? ≠ some dot ∧ (rest ≠ [] → name ∉ f.skipNames) := by
      simp only [atName, Option.some.injEq, forall_eq', noScopes, WalkFilter.admits_nil_iff, isDir]
    rw [Admitted, step, ih found]
    cases rest with
    | nil => simp
    | cons next rest =>
      simp only [List.mem_cons, List.dropLast_cons_cons, forall_eq_or_imp]
      tauto

/-- A file is accepted by its extension, its size and its not being excluded. -/
theorem accepted_iff {fs : Files} {f : WalkFilter} {root below : List OsString} {content : ByteArray}
    (formed : fs.top.WellFormed)
    (found : fs.kindAt? (root ++ below) = some (.file content)) :
    f.acceptsFile (root ++ below) content = true ↔ f.exclude ≠ some (root ++ below) ∧
      (f.extensions = [] ∨ ∃ ext, textExtension? (pathOf (root ++ below)) = some ext ∧
        ∃ e ∈ f.extensions, Language.normalExtension ext = Language.normalExtension e) ∧
      ∀ limit, f.maxFileSize = some limit → content.size ≤ limit := by
  have valid := (formed.at? (kindAt?_eq_file.mp found)).2
  rw [WalkFilter.acceptsFile, Bool.and_eq_true, Bool.and_eq_true, bne_iff_ne,
    WalkFilter.acceptsExtension_iff valid, WalkFilter.acceptsSize_iff, and_assoc]

theorem mem_walk_iff_lists {fs : Files} {f : WalkFilter} {root below : List OsString}
    (formed : fs.top.WellFormed) (plain : f.honourIgnoreFiles = false) :
    below ∈ fs.walk f root ↔ fs.Lists f root below := by
  rw [mem_walk_iff formed]
  constructor
  · rintro ⟨⟨content, located, accepted⟩, admitted⟩
    have found := kindAt?_eq_file.mpr located
    obtain ⟨kept, extension, sized⟩ := (accepted_iff formed found).mp accepted
    obtain ⟨shown, entered⟩ := (admitted_iff plain found).mp admitted
    exact ⟨⟨content, found, sized⟩, shown, entered, extension, kept⟩
  · rintro ⟨⟨content, found, sized⟩, shown, entered, extension, kept⟩
    exact ⟨⟨content, kindAt?_eq_file.mp found,
        (accepted_iff formed found).mpr ⟨kept, extension, sized⟩⟩,
      (admitted_iff plain found).mpr ⟨shown, entered⟩⟩

/-- A walk without ignore files is exact: it lists the files that it should, each of them once, in
the order of the bytes of the names. -/
theorem walk_exact {fs : Files} {f : WalkFilter} {root : List OsString} (formed : fs.top.WellFormed)
    (plain : f.honourIgnoreFiles = false) :
    (∀ below, below ∈ fs.walk f root ↔ fs.Lists f root below) ∧ (fs.walk f root).Nodup ∧
      (fs.walk f root).Pairwise fun p q => nameBytes p < nameBytes q :=
  ⟨fun _ => mem_walk_iff_lists formed plain, walk_nodup formed,
    (walk_ascends formed).imp Path.nameBytes_lt⟩

/-- A directory with names that come close to each other, and with much that a walk leaves out. -/
def crowdedProject : Files :=
  ⟨.dir [("p", .dir [
    ("a.py", .file "import a".toUTF8),
    ("a-b.py", .file "import b".toUTF8),
    ("big.py", .file "import lib.util".toUTF8),
    ("a", .dir [("b.PY", .file "".toUTF8), (".py", .file "".toUTF8), ("build", .file "".toUTF8)]),
    ("build", .dir [("x.py", .file "".toUTF8)]),
    ("up.py", .link "..")])], []⟩

theorem crowdedProject_wellFormed : crowdedProject.top.WellFormed := by
  refine .dir (by decide) (by decide) fun entry member => ?_
  simp only [List.mem_singleton] at member
  subst member
  refine .dir (by decide) (by decide) fun entry member => ?_
  simp only [List.mem_cons, List.not_mem_nil, or_false] at member
  rcases member with rfl | rfl | rfl | rfl | rfl | rfl
  · exact .file
  · exact .file
  · exact .file
  · refine .dir (by decide) (by decide) fun entry member => ?_
    simp only [List.mem_cons, List.not_mem_nil, or_false] at member
    rcases member with rfl | rfl | rfl <;> exact .file
  · refine .dir (by decide) (by decide) fun entry member => ?_
    simp only [List.mem_singleton] at member
    subst member
    exact .file
  · exact .link

/-- A file may have the name of a directory that is skipped, and an extension may be written with a
dot and in capitals. -/
theorem walk_exact_crowded :
    (∀ below, below ∈ crowdedProject.walk { skipDirs := ["build"], maxFileSize := some 8 } ["p"] ↔
      crowdedProject.Lists { skipDirs := ["build"], maxFileSize := some 8 } ["p"] below) ∧
    (["a", "build"] : List OsString) ∈
      crowdedProject.walk { skipDirs := ["build"], maxFileSize := some 8 } ["p"] ∧
    (["a", "b.PY"] : List OsString) ∈ crowdedProject.walk { extensions := [".Py"] } ["p"] ∧
    (["up.py"] : List OsString) ∉ crowdedProject.walk { extensions := [".Py"] } ["p"] := by
  obtain ⟨skipping, _⟩ := @walk_exact _ { skipDirs := ["build"], maxFileSize := some 8 } ["p"]
    crowdedProject_wellFormed rfl
  obtain ⟨typed, _⟩ := @walk_exact _ { extensions := [".Py"] } ["p"] crowdedProject_wellFormed rfl
  refine ⟨skipping, ?_, ?_, ?_⟩
  · exact (skipping _).mpr ⟨⟨_, rfl, by simp⟩, by decide, by decide, .inl rfl, by decide⟩
  · refine (typed _).mpr ⟨⟨_, rfl, by simp⟩, by decide, by decide, .inr ?_, by decide⟩
    exact ⟨"PY", by decide, ".Py", by decide, by decide⟩
  · intro listed
    obtain ⟨content, found, _⟩ := ((typed _).mp listed).file
    cases found

end Files

end Ripple
