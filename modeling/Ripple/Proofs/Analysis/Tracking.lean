import Mathlib.Data.List.Flatten
import Ripple.Analysis.Usages
import Ripple.Proofs.Ascending

/-!
Recorded uses, symbol by symbol. The uses of a symbol are those in the dependents, one after the
other, and what a dependent contributes depends on its own lines only.
-/

namespace Ripple

namespace UsageMap

/-- The recorded uses of a symbol. -/
def uses (m : UsageMap) (name : String) : List Usage := (m.entries.lookup name).getD []

theorem uses_eq_of_mem {m : UsageMap} {name : String} {uses : List Usage}
    (member : (name, uses) ∈ m.entries) : m.uses name = uses := by
  obtain ⟨before, behind, shape⟩ := List.append_of_mem member
  have ordered := m.ordered
  rw [shape] at ordered
  have earlier := (List.pairwise_append.mp ordered).2.2
  have found : m.entries.lookup name = some uses := by
    refine List.lookup_eq_some_iff.mpr ⟨before, behind, shape, fun entry listed => ?_⟩
    have less : entry.1 < name := earlier entry listed (name, uses) List.mem_cons_self
    exact bne_iff_ne.mpr (Std.ne_of_lt less).symm
  rw [UsageMap.uses, found, Option.getD_some]

theorem insertEntry_of_lt {e : String × List Usage} {l : List (String × List Usage)}
    (first : ∀ x ∈ l, e.1 < x.1) : insertEntry e l = e :: l := by
  cases l with
  | nil => rfl
  | cons x l => rw [insertEntry, if_pos (first x List.mem_cons_self)]

/-- Entries that come in order stay as they are. -/
theorem entries_ofList {entries : List (String × List Usage)}
    (ordered : entries.Pairwise fun a b => a.1 < b.1) : (ofList entries).entries = entries := by
  induction entries with
  | nil => rfl
  | cons e entries ih =>
    obtain ⟨first, others⟩ := List.pairwise_cons.mp ordered
    change insertEntry e (ofList entries).entries = e :: entries
    rw [ih others, insertEntry_of_lt first]

/-- A map from names in ascending order to their uses. Names without any use are left out. -/
def ofNames (names : List String) (usesOf : String → List Usage) : UsageMap :=
  ofList (names.filterMap fun name =>
    if (usesOf name).isEmpty then none else some (name, usesOf name))

section Names

theorem entry_eq_some_iff {usesOf : String → List Usage} {name : String} {entry : String × List Usage} :
    (if (usesOf name).isEmpty then none else some (name, usesOf name)) = some entry ↔
      entry = (name, usesOf name) ∧ usesOf name ≠ [] := by
  by_cases unused : usesOf name = []
  · simp [unused]
  · simp only [List.isEmpty_iff, unused, if_false, Option.some.injEq, ne_eq, not_false_eq_true,
      and_true]
    exact eq_comm

/-- The first of the names has an entry if it has uses. -/
theorem filterMap_entry_cons (usesOf : String → List Usage) (first : String) (names : List String) :
    ((first :: names).filterMap fun name =>
      if (usesOf name).isEmpty then none else some (name, usesOf name)) =
    (if usesOf first = [] then [] else [(first, usesOf first)]) ++ names.filterMap fun name =>
      if (usesOf name).isEmpty then none else some (name, usesOf name) := by
  by_cases unused : usesOf first = [] <;> simp [unused]

variable {names : List String} (ascends : names.Pairwise (· < ·)) (usesOf : String → List Usage)

include ascends

theorem entries_ofNames : (ofNames names usesOf).entries = names.filterMap fun name =>
    if (usesOf name).isEmpty then none else some (name, usesOf name) := by
  refine entries_ofList (List.Pairwise.filterMap _ ?_ ascends)
  intro a b below x first y second
  obtain ⟨rfl, _⟩ := entry_eq_some_iff.mp first
  obtain ⟨rfl, _⟩ := entry_eq_some_iff.mp second
  exact below

theorem uses_ofNames (name : String) :
    (ofNames names usesOf).uses name = if name ∈ names then usesOf name else [] := by
  rw [uses, entries_ofNames ascends]
  clear ascends
  induction names with
  | nil => rfl
  | cons first names ih =>
    rw [filterMap_entry_cons]
    by_cases same : name = first
    · subst same
      rw [if_pos List.mem_cons_self]
      -- Without uses there may be no entry, and then none is found behind it either.
      by_cases unused : usesOf name = []
      · rw [if_pos unused, List.nil_append, ih, unused, ite_self]
      · simp [unused]
    · have member : name ∈ first :: names ↔ name ∈ names := by simp [same]
      simp only [member]
      rw [← ih]
      by_cases unused : usesOf first = []
      · simp [unused]
      · simp [unused, List.lookup_cons, beq_false_of_ne same]

/-- A name is looked up with its uses if it is one of the names and has some. -/
theorem lookup_ofNames {name : String} {uses : List Usage} :
    (ofNames names usesOf).entries.lookup name = some uses ↔
      name ∈ names ∧ uses = usesOf name ∧ uses ≠ [] := by
  have found := uses_ofNames ascends usesOf name
  rw [UsageMap.uses] at found
  constructor
  · intro looked
    obtain ⟨first, rest, shape, _⟩ := List.lookup_eq_some_iff.mp looked
    have entry : (name, uses) ∈ (ofNames names usesOf).entries := by
      rw [shape]
      exact List.mem_append_right _ List.mem_cons_self
    rw [entries_ofNames ascends] at entry
    obtain ⟨name', member, kept⟩ := List.mem_filterMap.mp entry
    obtain ⟨pair, some⟩ := entry_eq_some_iff.mp kept
    cases pair
    exact ⟨member, rfl, some⟩
  · rintro ⟨member, rfl, some⟩
    rw [if_pos member] at found
    cases looked : (ofNames names usesOf).entries.lookup name with
    | none =>
      rw [looked] at found
      exact absurd found.symm some
    | some others =>
      rw [looked] at found
      rw [← found]
      rfl

theorem total_ofNames :
    (ofNames names usesOf).total = (names.flatMap usesOf).length := by
  rw [total, entries_ofNames ascends]
  clear ascends
  induction names with
  | nil => rfl
  | cons name names ih =>
    rw [filterMap_entry_cons, List.flatMap_cons, List.length_append, ← ih]
    by_cases unused : usesOf name = [] <;> simp [unused]

end Names

end UsageMap

namespace Engine

/-- The uses of a symbol in some files. -/
def usesAcross (e : Engine) (fs : Files) (root : List OsString) (files : List OsString)
    (name : String) : List Usage :=
  match wordPattern name with
  | .error _ => []
  | .ok pattern => files.flatMap fun file =>
    usesIn e.settings pattern file (e.usableLines fs root file)

/-- The names of the public symbols, in ascending order. -/
def publicNames (exports : List Export) : List String :=
  Text.ascending ((exports.filter (·.isPublic)).map (·.name))

theorem trackUsages_eq (e : Engine) (fs : Files) (root : List OsString) (exports : List Export)
    (files : List OsString) :
    e.trackUsages fs root exports files =
      .ofNames (publicNames exports) (e.usesAcross fs root files) := by
  simp only [trackUsages, UsageMap.ofNames, publicNames]
  refine congrArg UsageMap.ofList (congrArg (List.filterMap · _) (funext fun name => ?_))
  rw [usesAcross]
  cases wordPattern name with
  | error => rfl
  | ok pattern => simp only [List.flatMap_map]

theorem uses_trackUsages (e : Engine) (fs : Files) (root : List OsString) (exports : List Export)
    (files : List OsString) (name : String) :
    (e.trackUsages fs root exports files).uses name =
      if name ∈ publicNames exports then e.usesAcross fs root files name else [] := by
  rw [trackUsages_eq]
  exact UsageMap.uses_ofNames (Text.ascending_ascends _) _ name

theorem total_trackUsages (e : Engine) (fs : Files) (root : List OsString) (exports : List Export)
    (files : List OsString) :
    (e.trackUsages fs root exports files).total =
      ((publicNames exports).flatMap (e.usesAcross fs root files)).length := by
  rw [trackUsages_eq]
  exact UsageMap.total_ofNames (Text.ascending_ascends _) _

/-- A use names the file in which it was found. -/
theorem file_of_mem_usesIn {s : Settings} {pattern : Pattern} {file : OsString}
    {lines : List (Nat × List Char)} {use : Usage} (member : use ∈ usesIn s pattern file lines) :
    use.file = file := by
  obtain ⟨line, _, rfl⟩ := List.mem_map.mp member
  rfl

/-- The uses in some of the files are those that name one of them. -/
theorem filter_usesAcross (e : Engine) (fs : Files) (root : List OsString) (files : List OsString)
    (name : String) (p : OsString → Bool) :
    (e.usesAcross fs root files name).filter (fun use => p use.file) =
      e.usesAcross fs root (files.filter p) name := by
  simp only [usesAcross]
  cases wordPattern name with
  | error => rfl
  | ok pattern =>
    simp only
    rw [List.filter_flatMap]
    induction files with
    | nil => rfl
    | cons file files ih =>
      rw [List.flatMap_cons, ih, List.filter_cons]
      -- All uses in a file name that file, so they are kept or dropped together.
      split
      next kept =>
        rw [List.flatMap_cons, List.filter_eq_self.mpr]
        intro use member
        rwa [file_of_mem_usesIn member]
      next dropped =>
        rw [List.filter_eq_nil_iff.mpr, List.nil_append]
        intro use member
        rwa [file_of_mem_usesIn member]

/-- What files contribute depends on their lines only. -/
theorem usesAcross_congr {e : Engine} {fs fs' : Files} {root : List OsString} {files : List OsString}
    (same : ∀ file ∈ files, e.usableLines fs' root file = e.usableLines fs root file)
    (name : String) : e.usesAcross fs' root files name = e.usesAcross fs root files name := by
  simp only [usesAcross]
  cases wordPattern name with
  | error => rfl
  | ok pattern =>
    simp only [List.flatMap_def]
    rw [List.map_congr_left fun file member => by rw [same file member]]

/-- More files have more uses. -/
theorem usesAcross_sublist {e : Engine} {fs : Files} {root : List OsString}
    {files files' : List OsString} (sub : files.Sublist files') (name : String) :
    (e.usesAcross fs root files name).Sublist (e.usesAcross fs root files' name) := by
  simp only [usesAcross]
  cases wordPattern name with
  | error => exact List.Sublist.refl _
  | ok pattern => exact sub.flatMap _

/-- Where files are kept with their lines, what they contribute is kept among more files. -/
theorem usesAcross_keep {e : Engine} {fs fs' : Files} {root : List OsString}
    {files files' : List OsString} (sub : files.Sublist files')
    (same : ∀ file ∈ files, e.usableLines fs' root file = e.usableLines fs root file)
    (name : String) :
    (e.usesAcross fs root files name).Sublist (e.usesAcross fs' root files' name) := by
  rw [← usesAcross_congr same]
  exact usesAcross_sublist sub name

end Engine

end Ripple
