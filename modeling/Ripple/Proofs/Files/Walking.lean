import Mathlib.Data.List.Nodup
import Ripple.Files.Walk
import Ripple.Proofs.Files.Resolving

/-!
What a walk lists. A file is listed if it is accepted and if each step down to it is admitted by the
ignore files of the directories above. In a well-formed tree the files come in the order of the names
on their paths, since each directory is gone through in the order of its names; so no file is listed
twice.
-/

namespace Ripple

open Node

/-- Of a node it matters only whether it is a directory. -/
theorem WalkFilter.admits_congr {f : WalkFilter} {scopes : List IgnoreScope} {below : List OsString}
    {node node' : Node} (same : node'.kind = .dir ↔ node.kind = .dir) :
    f.admits scopes below node' = f.admits scopes below node := by
  cases node <;> cases node' <;> first | rfl | simp [kind] at same

namespace Files

/-- The ignore files that count in a directory, the nearest first. -/
def scopesOf (fs : Files) (f : WalkFilter) (root below : List OsString) : List IgnoreScope :=
  if f.honourIgnoreFiles then
    (List.range (below.length + 1)).reverse.map fun n =>
      ⟨n, fs.ignoreRules (root ++ below.take n)⟩
  else []

theorem scopesAt_nil (fs : Files) (f : WalkFilter) (root : List OsString) :
    fs.scopesAt f root [] [] = fs.scopesOf f root [] := by
  simp [scopesAt, scopesOf]

theorem scopesAt_scopesOf (fs : Files) (f : WalkFilter) (root here : List OsString) (name : OsString) :
    fs.scopesAt f root (here ++ [name]) (fs.scopesOf f root here) =
      fs.scopesOf f root (here ++ [name]) := by
  simp only [scopesAt, scopesOf]
  split
  next =>
    have longer : (here ++ [name]).length = here.length + 1 := List.length_append
    have last : (here ++ [name]).take (here.length + 1) = here ++ [name] := by
      rw [← longer, List.take_length]
    rw [longer, List.range_succ (n := here.length + 1), List.reverse_append,
      List.map_append]
    simp only [List.reverse_singleton, List.map_singleton, List.singleton_append, last,
      List.cons.injEq, true_and]
    refine List.map_congr_left fun n member => ?_
    have short : n ≤ here.length := by
      simp only [List.mem_reverse, List.mem_range] at member
      omega
    rw [List.take_append_of_le_length short]
  next => rfl

theorem walkEntries_eq (fs : Files) (f : WalkFilter) (root : List OsString)
    (scopes : List IgnoreScope) (here : List OsString) (entries : List (OsString × Node)) :
    fs.walkEntries f root scopes here entries = entries.map fun entry =>
      (entry.1, if f.admits scopes (here ++ [entry.1]) entry.2 then
        fs.walkNode f root scopes (here ++ [entry.1]) entry.2 else []) := by
  induction entries with
  | nil => rfl
  | cons entry entries ih => rw [walkEntries, ih]; rfl

/-- A directory lists what its admitted entries list, up to the order. -/
theorem walkNode_dir_perm (fs : Files) (f : WalkFilter) (root : List OsString)
    (scopes : List IgnoreScope) (here : List OsString) (entries : List (OsString × Node)) :
    (fs.walkNode f root scopes here (.dir entries)).Perm (entries.flatMap fun entry =>
      if f.admits (fs.scopesAt f root here scopes) (here ++ [entry.1]) entry.2 then
        fs.walkNode f root (fs.scopesAt f root here scopes) (here ++ [entry.1]) entry.2
      else []) := by
  rw [walkNode, walkEntries_eq]
  refine ((List.mergeSort_perm _ _).flatMap_right _).trans ?_
  rw [List.flatMap_map]

theorem mem_walkNode_dir {fs : Files} {f : WalkFilter} {root : List OsString}
    {scopes : List IgnoreScope} {here below : List OsString} {entries : List (OsString × Node)} :
    below ∈ fs.walkNode f root scopes here (.dir entries) ↔ ∃ entry ∈ entries,
      f.admits (fs.scopesAt f root here scopes) (here ++ [entry.1]) entry.2 = true ∧
      below ∈ fs.walkNode f root (fs.scopesAt f root here scopes) (here ++ [entry.1]) entry.2 := by
  rw [(walkNode_dir_perm ..).mem_iff, List.mem_flatMap]
  refine exists_congr fun entry => and_congr_right fun _ => ?_
  split
  next admitted => simp [admitted]
  next refused => simp [refused]

/-- Each step from a directory towards a place below it is admitted. -/
def Admitted (fs : Files) (f : WalkFilter) (root : List OsString) :
    List OsString → List OsString → Prop
  | _, [] => True
  | here, name :: rest =>
    (∀ node, fs.top.at? (root ++ (here ++ [name])) = some node →
      f.admits (fs.scopesOf f root here) (here ++ [name]) node = true) ∧
    Admitted fs f root (here ++ [name]) rest

/-- A file that a filter accepts stands at a place below a root. -/
def Accepted (fs : Files) (f : WalkFilter) (root below : List OsString) : Prop :=
  ∃ content, fs.top.at? (root ++ below) = some (.file content) ∧
    f.acceptsFile (root ++ below) content = true

theorem at?_entry {fs : Files} {location : List OsString} {entries : List (OsString × Node)}
    (found : fs.top.at? location = some (.dir entries)) (name : OsString) (rest : List OsString) :
    fs.top.at? (location ++ name :: rest) = (entries.lookup name).bind (·.at? rest) := by
  rw [at?_append, found, Option.bind_some, Node.at?]

theorem at?_child {fs : Files} {location : List OsString} {entries : List (OsString × Node)}
    (found : fs.top.at? location = some (.dir entries)) (distinct : (entries.map (·.1)).Nodup)
    {name : OsString} {node : Node} :
    fs.top.at? (location ++ [name]) = some node ↔ (name, node) ∈ entries := by
  rw [at?_entry found]
  constructor
  · intro entry
    obtain ⟨inner, entry, same⟩ := Option.bind_eq_some_iff.mp entry
    rw [at?_nil] at same
    cases same
    exact mem_of_lookup entry
  · intro member
    rw [lookup_of_mem distinct member, Option.bind_some, at?_nil]

/-- What is listed from a place on: the accepted files below it to which admitted steps lead. -/
theorem mem_walkNode_iff {fs : Files} {f : WalkFilter} {root here below : List OsString} {node : Node}
    {scopes : List IgnoreScope} (formed : node.WellFormed)
    (found : fs.top.at? (root ++ here) = some node)
    (within : fs.scopesAt f root here scopes = fs.scopesOf f root here) :
    below ∈ fs.walkNode f root scopes here node ↔ ∃ rest, below = here ++ rest ∧
      fs.Accepted f root below ∧ fs.Admitted f root here rest := by
  induction formed generalizing here scopes with
  | @file content =>
    rw [walkNode]
    constructor
    · intro member
      split at member
      next accepted =>
        obtain rfl := List.mem_singleton.mp member
        exact ⟨[], by simp, ⟨content, found, accepted⟩, trivial⟩
      next => simp at member
    · rintro ⟨rest, rfl, ⟨content', found', accepted⟩, _⟩
      cases rest with
      | nil =>
        rw [List.append_nil] at found' accepted ⊢
        rw [found] at found'
        cases found'
        simp [accepted]
      | cons name rest =>
        -- Nothing stands below a file.
        rw [← List.append_assoc, at?_append, found] at found'
        cases found'
  | link =>
    rw [walkNode]
    constructor
    · simp
    · rintro ⟨rest, rfl, ⟨content, found', _⟩, _⟩
      rw [← List.append_assoc, at?_append, found] at found'
      cases rest <;> cases found'
  | @dir entries distinct named each ih =>
    have child : ∀ {name node}, fs.top.at? (root ++ (here ++ [name])) = some node ↔
        (name, node) ∈ entries := by
      intro name node
      rw [← List.append_assoc]
      exact at?_child found distinct
    -- The walk below an entry is told by the entry's own steps, with the rules read so far.
    have inner : ∀ entry ∈ entries,
        (below ∈ fs.walkNode f root (fs.scopesOf f root here) (here ++ [entry.1]) entry.2 ↔
          ∃ rest, below = here ++ [entry.1] ++ rest ∧ fs.Accepted f root below ∧
            fs.Admitted f root (here ++ [entry.1]) rest) := fun entry member =>
      ih entry member (child.mpr member) (scopesAt_scopesOf ..)
    rw [mem_walkNode_dir, within]
    constructor
    · rintro ⟨⟨name, node⟩, member, admitted, listed⟩
      obtain ⟨rest, rfl, accepted, further⟩ := (inner _ member).mp listed
      refine ⟨name :: rest, by simp, accepted, fun node' found' => ?_, further⟩
      rw [child.mpr member] at found'
      cases found'
      exact admitted
    · rintro ⟨rest, rfl, accepted, admitted⟩
      have ⟨content, found', _⟩ := accepted
      rw [← List.append_assoc] at found'
      cases rest with
      | nil =>
        rw [List.append_nil, found] at found'
        cases found'
      | cons name rest =>
        rw [at?_entry found] at found'
        obtain ⟨node, entry, _⟩ := Option.bind_eq_some_iff.mp found'
        have member := mem_of_lookup entry
        refine ⟨(name, node), member, admitted.1 node (child.mpr member), ?_⟩
        exact (inner _ member).mpr ⟨rest, by simp, accepted, admitted.2⟩

/-- What a walk lists: the accepted files to which admitted steps lead. -/
theorem mem_walk_iff {fs : Files} {f : WalkFilter} {root below : List OsString}
    (formed : fs.top.WellFormed) :
    below ∈ fs.walk f root ↔ fs.Accepted f root below ∧ fs.Admitted f root [] below := by
  rw [walk]
  split
  next node found =>
    have listed : below ∈ fs.walkNode f root [] [] node ↔ ∃ rest, below = [] ++ rest ∧
        fs.Accepted f root below ∧ fs.Admitted f root [] rest :=
      mem_walkNode_iff (formed.at? found).1 (by rwa [List.append_nil]) (fs.scopesAt_nil f root)
    simpa using listed
  next missing =>
    constructor
    · simp
    · rintro ⟨⟨content, found, _⟩, _⟩
      rw [at?_append, missing] at found
      cases found

/-- What is listed below a name goes on with this name. -/
theorem begins_of_mem_walkNode {fs : Files} {f : WalkFilter} {root here below : List OsString}
    {entry : OsString × Node} {scopes : List IgnoreScope} (formed : entry.2.WellFormed)
    (found : fs.top.at? (root ++ (here ++ [entry.1])) = some entry.2)
    (within : fs.scopesAt f root (here ++ [entry.1]) scopes =
      fs.scopesOf f root (here ++ [entry.1]))
    (listed : below ∈ if f.admits scopes (here ++ [entry.1]) entry.2 then
      fs.walkNode f root scopes (here ++ [entry.1]) entry.2 else []) :
    ∃ rest, below = here ++ entry.1 :: rest := by
  split at listed
  next =>
    obtain ⟨rest, rfl, _⟩ := (mem_walkNode_iff formed found within).mp listed
    exact ⟨rest, by simp⟩
  next => simp at listed

/-- Sorted by names that are all different, entries ascend. -/
theorem sorted_ascends {α : Type} {entries : List (OsString × α)}
    (distinct : (entries.map (·.1)).Nodup) :
    (entries.mergeSort fun a b => decide (a.1 ≤ b.1)).Pairwise fun a b => a.1 < b.1 := by
  have sorted : (entries.mergeSort fun a b => decide (a.1 ≤ b.1)).Pairwise
      fun a b => decide (a.1 ≤ b.1) = true :=
    List.pairwise_mergeSort (fun a b c => by simpa using Std.le_trans)
      (fun a b => by simpa using Std.le_total) entries
  have apart : (entries.mergeSort fun a b => decide (a.1 ≤ b.1)).Pairwise
      fun a b => a.1 ≠ b.1 := by
    rw [← List.pairwise_map, ((List.mergeSort_perm _ _).map _).pairwise_iff Ne.symm]
    exact distinct
  exact (sorted.and apart).imp fun both => Std.lt_of_le_of_ne (of_decide_eq_true both.1) both.2

/-- Each file that is listed is below the next one, in the order of the names. -/
theorem walkNode_ascends {fs : Files} {f : WalkFilter} {root here : List OsString} {node : Node}
    {scopes : List IgnoreScope} (formed : node.WellFormed)
    (found : fs.top.at? (root ++ here) = some node)
    (within : fs.scopesAt f root here scopes = fs.scopesOf f root here) :
    (fs.walkNode f root scopes here node).Pairwise (· < ·) := by
  induction formed generalizing here scopes with
  | file =>
    rw [walkNode]
    split <;> simp
  | link => simp [walkNode]
  | @dir entries distinct named each ih =>
    have child : ∀ entry ∈ entries, fs.top.at? (root ++ (here ++ [entry.1])) = some entry.2 := by
      intro entry member
      rw [← List.append_assoc]
      exact (at?_child found distinct).mpr member
    have next : ∀ name : OsString, fs.scopesAt f root (here ++ [name]) (fs.scopesOf f root here) =
        fs.scopesOf f root (here ++ [name]) := scopesAt_scopesOf fs f root here
    rw [walkNode, within, walkEntries_eq, List.pairwise_flatMap]
    generalize lists : (entries.map fun entry => (entry.1,
      if f.admits (fs.scopesOf f root here) (here ++ [entry.1]) entry.2 then
        fs.walkNode f root (fs.scopesOf f root here) (here ++ [entry.1]) entry.2 else [])) = found
    -- The lists are sorted by the names of their entries, and each begins with its entry's name.
    have origin : ∀ one ∈ found.mergeSort fun a b => decide (a.1 ≤ b.1), ∃ entry ∈ entries,
        one = (entry.1, if f.admits (fs.scopesOf f root here) (here ++ [entry.1]) entry.2 then
          fs.walkNode f root (fs.scopesOf f root here) (here ++ [entry.1]) entry.2 else []) := by
      intro one member
      rw [List.mem_mergeSort, ← lists] at member
      obtain ⟨entry, listed, rfl⟩ := List.mem_map.mp member
      exact ⟨entry, listed, rfl⟩
    have ordered := @sorted_ascends _ found (by rwa [← lists, List.map_map])
    constructor
    · intro one member
      obtain ⟨entry, listed, rfl⟩ := origin one member
      dsimp only
      split
      next => exact ih entry listed (child entry listed) (next entry.1)
      next => exact .nil
    · refine ordered.imp_of_mem ?_
      intro one other member member' less below listed below' listed'
      obtain ⟨entry, inDir, rfl⟩ := origin one member
      obtain ⟨entry', inDir', rfl⟩ := origin other member'
      obtain ⟨rest, rfl⟩ :=
        begins_of_mem_walkNode (each _ inDir) (child _ inDir) (next entry.1) listed
      obtain ⟨rest', rfl⟩ :=
        begins_of_mem_walkNode (each _ inDir') (child _ inDir') (next entry'.1) listed'
      exact List.append_left_lt (List.cons_lt_cons_iff.mpr (.inl less))

/-- A walk lists its files in the order of the names on their paths. -/
theorem walk_ascends {fs : Files} {f : WalkFilter} {root : List OsString}
    (formed : fs.top.WellFormed) : (fs.walk f root).Pairwise (· < ·) := by
  rw [walk]
  split
  next node found =>
    exact walkNode_ascends (formed.at? found).1 (by rwa [List.append_nil]) (fs.scopesAt_nil f root)
  next => exact .nil

/-- No file is listed twice. -/
theorem walk_nodup {fs : Files} {f : WalkFilter} {root : List OsString}
    (formed : fs.top.WellFormed) : (fs.walk f root).Nodup :=
  (walk_ascends formed).imp fun less => Std.ne_of_lt less

end Files

/-- A filter that leaves out one file more. -/
def WalkFilter.without (f : WalkFilter) (target : List OsString) : WalkFilter :=
  { f with exclude := some target }

theorem WalkFilter.acceptsFile_without {f : WalkFilter} (all : f.exclude = none)
    (target location : List OsString) (content : ByteArray) :
    (f.without target).acceptsFile location content =
      (decide (location ≠ target) && f.acceptsFile location content) := by
  have differs : (some target != some location) = decide (location ≠ target) := by
    by_cases same : location = target <;> simp [same, bne_iff_ne, @eq_comm _ target]
  simp only [acceptsFile, without, all, acceptsExtension, acceptsSize, differs, Bool.and_assoc]
  rfl

namespace Files

/-- Leaving a file out of a walk is the same as taking it from what is listed. -/
theorem walkNode_without {fs : Files} {f : WalkFilter} (all : f.exclude = none)
    {root here target : List OsString} {node : Node} {scopes : List IgnoreScope}
    (formed : node.WellFormed) :
    fs.walkNode (f.without target) root scopes here node =
      (fs.walkNode f root scopes here node).filter fun below => root ++ below ≠ target := by
  induction formed generalizing here scopes with
  | @file content =>
    rw [walkNode, walkNode, f.acceptsFile_without all]
    by_cases same : root ++ here = target <;>
      cases f.acceptsFile (root ++ here) content <;> simp [same]
  | link => simp [walkNode]
  | @dir entries distinct named each ih =>
    let taken := fun found : OsString × List (List OsString) =>
      (found.1, found.2.filter fun below => root ++ below ≠ target)
    have filtered : ∀ scopes, fs.walkEntries (f.without target) root scopes here entries =
        (fs.walkEntries f root scopes here entries).map taken := by
      intro scopes
      rw [walkEntries_eq, walkEntries_eq, List.map_map]
      refine List.map_congr_left fun entry member => ?_
      have admits : (f.without target).admits = f.admits := rfl
      simp only [Function.comp_apply, taken, admits, ih entry member]
      split <;> rfl
    have scopesAt : fs.scopesAt (f.without target) = fs.scopesAt f := rfl
    -- The entries keep their names, so they are sorted alike with and without the target.
    rw [walkNode, walkNode, List.filter_flatMap, scopesAt, filtered,
      ← List.map_mergeSort (r := fun a b => decide (a.1 ≤ b.1)) (fun _ _ _ _ => rfl),
      List.flatMap_map]

theorem walk_without {fs : Files} {f : WalkFilter} (all : f.exclude = none)
    {root target : List OsString} (formed : fs.top.WellFormed) :
    fs.walk (f.without target) root =
      (fs.walk f root).filter fun below => root ++ below ≠ target := by
  rw [walk, walk]
  split
  next node found => exact walkNode_without all (formed.at? found).1
  next => rfl

end Files

end Ripple
