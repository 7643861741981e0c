import Ripple.Proofs.Analysis.ReverseSearch
import Ripple.Proofs.Analysis.Tracking

/-!
What an analysis finds in one tree and finds again in another. Where a tree keeps the files of an
older one, and the ignore files of its directories say the same, whatever was found in a file that
is kept is found again: each file is judged by itself.
-/

namespace Ripple

open Node Ripple.Path

namespace Files

/-- The ignore files of the old directories say the same in the new tree. -/
def SameRules (old new : Files) : Prop :=
  ∀ location, old.kindAt? location = some .dir → new.ignoreRules location = old.ignoreRules location

theorem scopesOf_congr {old new : Files} {f : WalkFilter} {root here : List OsString}
    (rules : f.honourIgnoreFiles = true → SameRules old new)
    (isDir : old.kindAt? (root ++ here) = some .dir) :
    new.scopesOf f root here = old.scopesOf f root here := by
  simp only [scopesOf]
  split
  next honoured =>
    refine List.map_congr_left fun n _ => ?_
    have above : old.kindAt? (root ++ here.take n) = some .dir := by
      by_cases all : here.drop n = []
      · have whole := List.take_append_drop n here
        rw [all, List.append_nil] at whole
        rwa [whole]
      · refine isDir_above all (?_ : _ = some Kind.dir)
        rwa [List.append_assoc, List.take_append_drop]
    rw [rules honoured _ above]
  next => rfl

/-- The rules of an ignore file are those of the file to which its path leads, if there is one. -/
theorem ignoreRules_congr {old new : Files} {location : List OsString}
    (forth : ∀ reached, old.locate (pathOf (location ++ [ignoreFile])) = .ok reached →
      new.locate (pathOf (location ++ [ignoreFile])) = .ok reached ∧
        new.readAt reached = old.readAt reached)
    (back : ∀ reached, new.locate (pathOf (location ++ [ignoreFile])) = .ok reached →
      old.locate (pathOf (location ++ [ignoreFile])) = .ok reached) :
    new.ignoreRules location = old.ignoreRules location := by
  -- Where the path leads nowhere in one tree, it leads nowhere in the other.
  have same : ∀ bytes, new.read (pathOf (location ++ [ignoreFile])) = .ok bytes ↔
      old.read (pathOf (location ++ [ignoreFile])) = .ok bytes := by
    intro bytes
    rw [read, read]
    cases led : old.locate (pathOf (location ++ [ignoreFile])) with
    | ok reached =>
      obtain ⟨leads, same⟩ := forth reached led
      simp only [leads, bind, Except.bind, same]
    | error =>
      cases leads : new.locate (pathOf (location ++ [ignoreFile])) with
      | ok reached =>
        have both := back reached leads
        rw [led] at both
        cases both
      | error => simp [bind, Except.bind]
  rw [ignoreRules, ignoreRules]
  cases is : new.read (pathOf (location ++ [ignoreFile])) with
  | ok bytes => rw [(same bytes).mp is]
  | error =>
    cases was : old.read (pathOf (location ++ [ignoreFile])) with
    | ok bytes =>
      rw [(same bytes).mpr was] at is
      cases is
    | error => rfl

namespace Keeps

variable {but : List OsString → Prop} {old new : Files}

theorem readAt (keeps : Keeps but old new) {location : List OsString} {kind : Kind}
    (same : ¬ but location) (found : old.kindAt? location = some kind) :
    new.readAt location = old.readAt location := by
  rw [readAt_eq, readAt_eq, found, keeps.kept location kind same found]

/-- A text that is kept is read again. -/
theorem decoded (keeps : Keeps but old new) {location : List OsString} {source : String}
    (same : ¬ but location) (text : (old.readAt location >>= decode) = .ok source) :
    (new.readAt location >>= decode) = .ok source := by
  cases found : old.kindAt? location with
  | none =>
    rw [readAt_eq, found] at text
    cases text
  | some kind => rwa [keeps.readAt same found]

theorem admitted (keeps : Keeps but old new) {f : WalkFilter} {root here rest : List OsString}
    (rules : f.honourIgnoreFiles = true → SameRules old new) {content : ByteArray}
    (found : old.kindAt? (root ++ (here ++ rest)) = some (.file content))
    (same : ¬ but (root ++ (here ++ rest))) (admitted : old.Admitted f root here rest) :
    new.Admitted f root here rest := by
  induction rest generalizing here with
  | nil => trivial
  | cons name rest ih =>
    have split : root ++ (here ++ name :: rest) = root ++ ((here ++ [name]) ++ rest) := by simp
    have isDir : old.kindAt? (root ++ here) = some .dir :=
      isDir_above (List.cons_ne_nil name rest) (by rwa [List.append_assoc])
    rw [split] at found same
    refine ⟨fun node' there => ?_, ih found same admitted.2⟩
    -- The names on the way are those of directories, which are kept, and the last is the file's.
    obtain ⟨node, stood, alike⟩ : ∃ node, old.top.at? (root ++ (here ++ [name])) = some node ∧
        node'.kind = node.kind := by
      have step : ∀ kind, old.kindAt? (root ++ (here ++ [name])) = some kind →
          new.kindAt? (root ++ (here ++ [name])) = some kind → ∃ node,
            old.top.at? (root ++ (here ++ [name])) = some node ∧ node'.kind = node.kind := by
        intro kind was is
        obtain ⟨node, stood, rfl⟩ := Option.map_eq_some_iff.mp was
        rw [kindAt?, there] at is
        exact ⟨node, stood, Option.some.inj is⟩
      cases rest with
      | nil =>
        rw [List.append_nil] at found same
        exact step _ found (keeps.kept _ _ same found)
      | cons next rest =>
        rw [← List.append_assoc] at found
        have dir := isDir_above (by simp) found
        exact step _ dir (keeps.dir dir)
    have dirs : node'.kind = .dir ↔ node.kind = .dir := by rw [alike]
    rw [scopesOf_congr rules isDir, WalkFilter.admits_congr dirs]
    exact admitted.1 node stood

/-- A file that is kept is listed again. -/
theorem mem_walk (keeps : Keeps but old new) (formed : old.top.WellFormed)
    (formed' : new.top.WellFormed) {f : WalkFilter}
    (rules : f.honourIgnoreFiles = true → SameRules old new) {root below : List OsString}
    (same : ¬ but (root ++ below)) (member : below ∈ old.walk f root) : below ∈ new.walk f root := by
  obtain ⟨⟨content, found, accepted⟩, admitted⟩ := (mem_walk_iff formed).mp member
  have kept := keeps.kept _ _ same (kindAt?_eq_file.mpr found)
  exact (mem_walk_iff formed').mpr ⟨⟨content, kindAt?_eq_file.mp kept, accepted⟩,
    keeps.admitted rules (kindAt?_eq_file.mpr found) same admitted⟩

end Keeps

end Files

namespace Engine

section Keeping

variable {but : List OsString → Prop} {old new : Files} (keeps : Files.Keeps but old new)
  (formed : old.top.WellFormed) (formed' : new.top.WellFormed) {e : Engine}
  (rules : e.settings.honourIgnoreFiles = true → Files.SameRules old new)
  {root target : List OsString}

include keeps

theorem Imports.keep {location : List OsString} (same : ¬ but location)
    (imports : e.Imports old target location) : e.Imports new target location := by
  obtain ⟨stem, l, source, patterns, stemmed, written, text, compiled, found⟩ := imports
  exact ⟨stem, l, source, patterns, stemmed, written, keeps.decoded same text, compiled, found⟩

theorem Resolves.keep {file root : OsString} {source : String} {target base : List OsString}
    (same : ¬ but target) (resolves : Resolves old file root source target base) :
    Resolves new file root source target base where
  located := keeps.locate same resolves.located
  readable := keeps.decoded same resolves.readable
  rooted := keeps.locate (keeps.not_dir resolves.isDir) resolves.rooted
  isDir := keeps.dir resolves.isDir

include formed formed' rules

theorem mem_candidates_keep {below : List OsString} (same : ¬ but (root ++ below))
    (member : below ∈ e.candidates old root target) : below ∈ e.candidates new root target := by
  obtain ⟨listed, differs⟩ := List.mem_filter.mp member
  exact List.mem_filter.mpr ⟨keeps.mem_walk formed formed' rules same listed, differs⟩

variable (isDir : old.kindAt? root = some .dir)

include isDir

/-- The lines of a candidate that is kept are the same. -/
theorem usableLines_keep {below : List OsString} (same : ¬ but (root ++ below))
    (member : below ∈ e.candidates old root target) :
    e.usableLines new root (ofComponents below) = e.usableLines old root (ofComponents below) := by
  have again := mem_candidates_keep keeps formed formed' rules same member
  obtain ⟨⟨content, found⟩, _⟩ := candidate_is_file formed member
  have text : new.readText (join (Files.pathOf root) (ofComponents below)) =
      old.readText (join (Files.pathOf root) (ofComponents below)) := by
    rw [Files.readText, Files.readText, Files.read, Files.read,
      locate_candidate formed isDir member, locate_candidate formed' (keeps.dir isDir) again]
    simp only [bind, Except.bind, keeps.readAt same (Files.kindAt?_eq_file.mpr found)]
  unfold usableLines
  simp only [text]

/-- A dependent that is kept is reported again. -/
theorem Reports.keep {files files' : List OsString} {scanned scanned' : Nat}
    (reports : e.Reports old root target files scanned)
    (reports' : e.Reports new root target files' scanned') {path : OsString}
    (same : ¬ but (root ++ components path)) (member : path ∈ files) :
    path ∈ files' ∧ e.usableLines new root path = e.usableLines old root path := by
  obtain ⟨below, candidate, rfl, imports⟩ := (reports.mem_iff path).mp member
  have names := (candidate_is_file formed candidate).2.1
  rw [components_ofComponents fun name listed => names name (by simp [listed])] at same
  have again := mem_candidates_keep keeps formed formed' rules same candidate
  exact ⟨(reports'.mem_iff _).mpr ⟨below, again, rfl, imports.keep keeps same⟩,
    usableLines_keep keeps formed formed' rules isDir same candidate⟩

end Keeping

/-- What a report tells when its search comes to an end: what the text of the file has, which files
depend on it, how they use it, and the risk that follows. -/
structure Describes (e : Engine) (fs : Files) (file : OsString) (source : String)
    (target base : List OsString) (change : Option String) (r : ImpactReport) : Prop where
  language : r.language = (e.table.ofPath? file).map (·.name)
  exports : r.exports = (Extraction.exports source (e.table.ofPath? file)).items
  notes : r.notes = (Extraction.exports source (e.table.ofPath? file)).note.toList
  reports : e.Reports fs base target r.dependents r.scanned
  usages : r.usages = e.trackUsages fs base r.exports r.dependents
  risk : r.risk = Risk.assess r.dependents.length (r.exports.filter (·.isPublic)).length
    r.usages.total change

section Describing

variable {e : Engine} {fs : Files} {file root : OsString} {source : String}
  {target base : List OsString} (unlimited : e.settings.deadlineMs = none) (formed : fs.top.WellFormed)

include unlimited formed

theorem reportOn_describes (file : OsString) (source : String) (change : Option String)
    (isDir : fs.kindAt? base = some .dir) :
    e.Describes fs file source target base change
      (e.reportOn fs file source target base change).1 := by
  obtain ⟨files, scanned, search, reports⟩ :=
    @findDependents_reports e fs base target unlimited formed isDir
  constructor
  · rfl
  · rfl
  · simp [reportOn, search, DependentScan.notes]
  · simpa only [reportOn, search] using reports
  · simp only [reportOn]
  · simp only [reportOn]

/-- Where the paths resolve there is a report. -/
theorem Resolves.exists_report (change : Option String)
    (resolves : Resolves fs file root source target base) :
    ∃ r, (e.analyzeImpact fs file root change).result = .ok r ∧
      e.Describes fs file source target base change r :=
  ⟨_, analyzeImpact_eq_ok_iff.mpr ⟨source, target, base, resolves, rfl⟩,
    reportOn_describes unlimited formed file source change resolves.isDir⟩

/-- A report is there only where the paths resolve. -/
theorem exists_describes {change : Option String} {r : ImpactReport}
    (succeeds : (e.analyzeImpact fs file root change).result = .ok r) :
    ∃ source target base, Resolves fs file root source target base ∧
      e.Describes fs file source target base change r := by
  obtain ⟨source, target, base, resolves, rfl⟩ := analyzeImpact_eq_ok_iff.mp succeeds
  exact ⟨source, target, base, resolves,
    reportOn_describes unlimited formed file source change resolves.isDir⟩

end Describing

end Engine

end Ripple
