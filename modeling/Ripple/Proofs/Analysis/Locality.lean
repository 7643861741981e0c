import Mathlib.Data.List.Perm.Subperm
import Ripple.Proofs.Analysis.Keeping
import Ripple.Proofs.Language.Agreement

/-!
Locality of impact analysis. If two trees differ in one regular file, which neither the target nor an
ignore file is, each of them keeps what the other one has elsewhere. So the reports on both differ in
what they say of that file, and in nothing else.
-/

namespace Ripple

open Ripple.Path Node

namespace Files

/-- Two trees that are the same save for one regular file, which may be absent. -/
structure DifferAt (file : List OsString) (fs fs' : Files) : Prop where
  workDir : fs'.workDir = fs.workDir
  elsewhere : ∀ location, location ≠ file → fs'.kindAt? location = fs.kindAt? location
  regular : ∀ kind, fs.kindAt? file = some kind → ∃ content, kind = .file content
  regular' : ∀ kind, fs'.kindAt? file = some kind → ∃ content, kind = .file content

namespace DifferAt

variable {file : List OsString} {fs fs' : Files}

theorem symm (differ : DifferAt file fs fs') : DifferAt file fs' fs where
  workDir := differ.workDir.symm
  elsewhere location other := (differ.elsewhere location other).symm
  regular := differ.regular'
  regular' := differ.regular

theorem keeps (differ : DifferAt file fs fs') : Keeps (· = file) fs fs' where
  workDir := differ.workDir
  kept location kind other found := by rwa [differ.elsewhere location other]
  plain location kind same found := differ.regular kind (by rwa [← same])

/-- If the ignore file of no directory is the file, all of them say the same. -/
theorem sameRules (differ : DifferAt file fs fs')
    (apart : ∀ dir, fs.kindAt? dir = some .dir →
      fs.locate (pathOf (dir ++ [ignoreFile])) ≠ .ok file)
    (apart' : ∀ dir, fs'.kindAt? dir = some .dir →
      fs'.locate (pathOf (dir ++ [ignoreFile])) ≠ .ok file) : SameRules fs fs' := by
  intro dir isDir
  refine ignoreRules_congr ?_ ?_
  · intro reached leads
    have other : reached ≠ file := by
      rintro rfl
      exact apart dir isDir leads
    exact ⟨differ.keeps.locate other leads, by rw [readAt_eq, readAt_eq, differ.elsewhere _ other]⟩
  · intro reached leads
    refine differ.symm.keeps.locate ?_ leads
    rintro rfl
    exact apart' dir (differ.keeps.dir isDir) leads

end DifferAt

end Files

namespace Engine

/-- Two well-formed trees differ in one regular file, to which neither the path of the target nor,
where ignore files count, the ignore file of a directory leads in one of them. -/
structure DifferAside (e : Engine) (aside : List OsString) (file : OsString) (fs fs' : Files) :
    Prop where
  differ : Files.DifferAt aside fs fs'
  formed : fs.top.WellFormed
  formed' : fs'.top.WellFormed
  target : fs.locate file ≠ .ok aside
  target' : fs'.locate file ≠ .ok aside
  ignore : e.settings.honourIgnoreFiles = true → ∀ dir, fs.kindAt? dir = some .dir →
    fs.locate (Files.pathOf (dir ++ [Files.ignoreFile])) ≠ .ok aside
  ignore' : e.settings.honourIgnoreFiles = true → ∀ dir, fs'.kindAt? dir = some .dir →
    fs'.locate (Files.pathOf (dir ++ [Files.ignoreFile])) ≠ .ok aside

/-- A path from a directory on does not name a file. -/
def outside (base aside : List OsString) (path : OsString) : Bool := base ++ components path ≠ aside

/-- Two reports say the same, save for one file. -/
structure SameBut (base aside : List OsString) (r r' : ImpactReport) : Prop where
  language : r'.language = r.language
  exports : r'.exports = r.exports
  notes : r'.notes = r.notes
  dependents : r'.dependents.filter (outside base aside) = r.dependents.filter (outside base aside)
  usages : ∀ name, (r'.usages.uses name).filter (fun use => outside base aside use.file) =
    (r.usages.uses name).filter (fun use => outside base aside use.file)
  scanned : r'.scanned ≤ r.scanned + 1 ∧ r.scanned ≤ r'.scanned + 1

theorem Resolves.unique {fs : Files} {file root : OsString} {source source' : String}
    {target target' base base' : List OsString} (one : Resolves fs file root source target base)
    (two : Resolves fs file root source' target' base') :
    source' = source ∧ target' = target ∧ base' = base := by
  have targets := Except.ok.inj (two.located.symm.trans one.located)
  have readable := two.readable
  rw [targets] at readable
  exact ⟨Except.ok.inj (readable.symm.trans one.readable), targets,
    Except.ok.inj (two.rooted.symm.trans one.rooted)⟩

/-- If all candidates but one file are candidates in another tree, there are at least as many there,
save one. -/
theorem length_candidates_le {e : Engine} {fs fs' : Files} {root target aside : List OsString}
    (formed : fs.top.WellFormed)
    (keep : ∀ below ∈ e.candidates fs root target, root ++ below ≠ aside →
      below ∈ e.candidates fs' root target) :
    (e.candidates fs root target).length ≤ (e.candidates fs' root target).length + 1 := by
  have distinct : (e.candidates fs root target).Nodup := (Files.walk_nodup formed).filter _
  have covered : e.candidates fs root target ⊆
      aside.drop root.length :: e.candidates fs' root target := by
    intro below member
    by_cases same : root ++ below = aside
    · rw [← same, List.drop_left]
      exact List.mem_cons_self
    · exact List.mem_cons_of_mem _ (keep below member same)
  exact (distinct.subperm covered).length_le

namespace DifferAside

variable {e : Engine} {aside : List OsString} {file root : OsString} {fs fs' : Files}
  {change : Option String}

theorem symm (apart : e.DifferAside aside file fs fs') : e.DifferAside aside file fs' fs :=
  ⟨apart.differ.symm, apart.formed', apart.formed, apart.target', apart.target, apart.ignore',
    apart.ignore⟩

theorem rules (apart : e.DifferAside aside file fs fs')
    (honoured : e.settings.honourIgnoreFiles = true) : Files.SameRules fs fs' :=
  apart.differ.sameRules (apart.ignore honoured) (apart.ignore' honoured)

theorem resolves (apart : e.DifferAside aside file fs fs') {source : String}
    {target base : List OsString} (resolves : Resolves fs file root source target base) :
    Resolves fs' file root source target base := by
  refine resolves.keep apart.differ.keeps ?_
  rintro rfl
  exact apart.target resolves.located

/-- What is reported in one tree is reported in the other one, save for the file. -/
theorem reports (apart : e.DifferAside aside file fs fs') {base target files files' : List OsString}
    {scanned scanned' : Nat} (isDir : fs.kindAt? base = some .dir)
    (reports : e.Reports fs base target files scanned)
    (reports' : e.Reports fs' base target files' scanned') :
    (∀ path ∈ files.filter (outside base aside), path ∈ files'.filter (outside base aside) ∧
      e.usableLines fs' base path = e.usableLines fs base path) ∧ scanned ≤ scanned' + 1 := by
  constructor
  · intro path member
    obtain ⟨listed, out⟩ := List.mem_filter.mp member
    have other : base ++ components path ≠ aside := of_decide_eq_true out
    obtain ⟨again, lines⟩ := reports.keep apart.differ.keeps apart.formed apart.formed' apart.rules
      isDir reports' other listed
    exact ⟨List.mem_filter.mpr ⟨again, out⟩, lines⟩
  · rw [reports.scanned_eq, reports'.scanned_eq]
    split
    next =>
      exact length_candidates_le apart.formed fun below member other =>
        mem_candidates_keep apart.differ.keeps apart.formed apart.formed' apart.rules other member
    next => exact Nat.zero_le _

theorem succeeds (apart : e.DifferAside aside file fs fs')
    (succeeds : ∃ r, (e.analyzeImpact fs file root change).result = .ok r) :
    ∃ r, (e.analyzeImpact fs' file root change).result = .ok r := by
  obtain ⟨r, succeeds⟩ := succeeds
  obtain ⟨source, target, base, resolves, _⟩ := analyzeImpact_eq_ok_iff.mp succeeds
  exact ⟨_, analyzeImpact_eq_ok_iff.mpr ⟨source, target, base, apart.resolves resolves, rfl⟩⟩

end DifferAside

/-- Locality: in two trees that differ in one regular file aside from the target and from the ignore
files, an analysis succeeds in both or in neither, and its reports are the same save for what they
say of that file. -/
theorem impact_local {e : Engine} {aside : List OsString} {file root : OsString} {fs fs' : Files}
    {change : Option String} (unlimited : e.settings.deadlineMs = none)
    (apart : e.DifferAside aside file fs fs') :
    ((∃ r, (e.analyzeImpact fs file root change).result = .ok r) ↔
      ∃ r, (e.analyzeImpact fs' file root change).result = .ok r) ∧
    ∀ r r', (e.analyzeImpact fs file root change).result = .ok r →
      (e.analyzeImpact fs' file root change).result = .ok r' →
      ∃ base, fs.locate root = .ok base ∧ SameBut base aside r r' := by
  refine ⟨⟨apart.succeeds, apart.symm.succeeds⟩, fun r r' ok ok' => ?_⟩
  obtain ⟨source, target, base, resolves, one⟩ :=
    exists_describes unlimited apart.formed ok
  obtain ⟨source', target', base', resolves', two⟩ :=
    exists_describes unlimited apart.formed' ok'
  -- Both trees have the target and the root at the same places, so one search is made in both.
  obtain ⟨rfl, rfl, rfl⟩ := (apart.resolves resolves).unique resolves'
  obtain ⟨forth, atMost⟩ := apart.reports resolves.isDir one.reports two.reports
  obtain ⟨back, atMost'⟩ := apart.symm.reports resolves'.isDir two.reports one.reports
  have exports : r'.exports = r.exports := two.exports.trans one.exports.symm
  -- Lists in ascending order are equal if they have the same members.
  have sorted := (List.pairwise_map.mp one.reports.ascends).filter (outside base' aside)
  have sorted' := (List.pairwise_map.mp two.reports.ascends).filter (outside base' aside)
  have same : r'.dependents.filter (outside base' aside) =
      r.dependents.filter (outside base' aside) :=
    eq_of_ascending sorted' sorted fun path =>
      ⟨fun member => (back path member).1, fun member => (forth path member).1⟩
  refine ⟨base', resolves.rooted, two.language.trans one.language.symm, exports,
    two.notes.trans one.notes.symm, same, fun name => ?_, atMost', atMost⟩
  rw [one.usages, two.usages, exports, uses_trackUsages, uses_trackUsages]
  split
  next =>
    rw [filter_usesAcross, filter_usesAcross, same,
      usesAcross_congr fun path member => (forth path member).2]
  next => rfl

end Engine

namespace Files

theorem eq_nil_of_isDir {entries : List (OsString × Node)} {workDir location : List OsString}
    (plain : ∀ entry ∈ entries, entry.2.kind ≠ .dir)
    (isDir : kindAt? ⟨.dir entries, workDir⟩ location = some .dir) : location = [] := by
  obtain ⟨_, found⟩ := kindAt?_eq_dir.mp isDir
  rcases at?_flat plain found with ⟨here, _⟩ | ⟨name, _, listed⟩
  · exact here
  · exact absurd rfl (plain _ listed)

theorem differAt_entry {entries : List (OsString × Node)} {workDir : List OsString} {name : OsString}
    {content : ByteArray} (absent : entries.lookup name = none) :
    DifferAt [name] ⟨.dir (entries ++ [(name, .file content)]), workDir⟩ ⟨.dir entries, workDir⟩ := by
  refine ⟨rfl, fun location other => ?_, fun kind found => ?_, fun kind found => ?_⟩
  · cases location with
    | nil => rfl
    | cons first rest =>
      rw [kindAt?, kindAt?, at?, at?, List.lookup_append]
      by_cases same : first = name
      · subst same
        rw [absent, Option.none_or, List.lookup_cons_self]
        cases rest with
        | nil => contradiction
        | cons => rfl
      · simp [List.lookup_cons, beq_false_of_ne same]
  · rw [kindAt?, at?, List.lookup_append, absent, Option.none_or, List.lookup_cons_self] at found
    cases found
    exact ⟨content, rfl⟩
  · rw [kindAt?, at?, absent] at found
    cases found

end Files

/-- A project whose ignore file is a link to rules, which are not there. -/
def linkedRules : List (OsString × Node) :=
  [(".gitignore", .link "rules.txt"), ("app.py", .file "import os, pkg.util as u\n".toUTF8),
    ("util.py", .file "def f():\n    pass\n".toUTF8)]

/-- Rules that hide a file. -/
def hidingRules : OsString × Node := ("rules.txt", .file "app.py\n".toUTF8)

def unruled : Files := ⟨.dir linkedRules, []⟩

def ruled : Files := ⟨.dir (linkedRules ++ [hidingRules]), []⟩

def honouring : Engine := ⟨{ honourIgnoreFiles := true }, .builtin⟩

theorem unruled_wellFormed : unruled.top.WellFormed :=
  Node.wellFormed_flat (by decide) (by decide) (by decide)

theorem ruled_wellFormed : ruled.top.WellFormed :=
  Node.wellFormed_flat (by decide) (by decide) (by decide)

theorem unruled_resolves :
    Engine.Resolves unruled "util.py" "." "def f():\n    pass\n" ["util.py"] [] where
  located := by decide
  readable := by decide
  rooted := by decide
  isDir := rfl

theorem ruled_resolves :
    Engine.Resolves ruled "util.py" "." "def f():\n    pass\n" ["util.py"] [] where
  located := by decide
  readable := by decide
  rooted := by decide
  isDir := rfl

/-- Without rules the file is a dependent. -/
theorem app_reported {files : List OsString} {scanned : Nat}
    (reports : honouring.Reports unruled [] ["util.py"] files scanned) :
    ("app.py" : OsString) ∈ files := by
  obtain ⟨patterns, compiled, found⟩ := Language.listing_imports_util
  refine (reports.mem_iff _).mpr ⟨["app.py"], List.mem_filter.mpr ⟨?_, by decide⟩, by decide,
    "util", .python, _, patterns, by decide, rfl, by decide, compiled, Engine.imports_iff.mp found⟩
  refine (Files.mem_walk_iff unruled_wellFormed).mpr ⟨⟨_, rfl, by decide⟩, ?_, trivial⟩
  rintro node found
  cases found
  decide

/-- The rules leave nothing to examine. -/
theorem nothing_reported {files : List OsString} {scanned : Nat}
    (reports : honouring.Reports ruled [] ["util.py"] files scanned) : files = [] := by
  rw [List.eq_nil_iff_forall_not_mem]
  intro path member
  obtain ⟨below, candidate, _⟩ := (reports.mem_iff path).mp member
  obtain ⟨listed, differs⟩ := List.mem_filter.mp candidate
  obtain ⟨⟨content, found, accepted⟩, admitted⟩ := (Files.mem_walk_iff ruled_wellFormed).mp listed
  rcases at?_flat (by decide) found with ⟨_, whole⟩ | ⟨name, rfl, entry⟩
  · cases whole
  · simp only [linkedRules, hidingRules, List.cons_append, List.nil_append, List.mem_cons,
      List.not_mem_nil, or_false, Prod.mk.injEq, reduceCtorEq, and_false, false_or] at entry
    rcases entry with ⟨rfl, _⟩ | ⟨rfl, _⟩ | ⟨rfl, same⟩
    · exact absurd (admitted.1 _ rfl) (by decide +kernel)
    · exact absurd differs (by decide)
    · cases same
      exact absurd accepted (by decide)

/-- A file that an ignore file leads to is not aside, though it is no ignore file itself: with the
rules, a dependent is missing that is there without them. -/
theorem linked_rules_not_local :
    Files.DifferAt ["rules.txt"] ruled unruled ∧ ruled.locate "util.py" ≠ .ok ["rules.txt"] ∧
      unruled.locate "util.py" ≠ .ok ["rules.txt"] ∧
      (["rules.txt"] : List OsString).getLast? ≠ some Files.ignoreFile ∧
      ∃ r r', (honouring.analyzeImpact ruled "util.py" "." none).result = .ok r ∧
        (honouring.analyzeImpact unruled "util.py" "." none).result = .ok r' ∧
        r'.dependents.filter (Engine.outside [] ["rules.txt"]) ≠
          r.dependents.filter (Engine.outside [] ["rules.txt"]) := by
  obtain ⟨r, ok, one⟩ := ruled_resolves.exists_report (e := honouring) rfl ruled_wellFormed none
  obtain ⟨r', ok', two⟩ := unruled_resolves.exists_report (e := honouring) rfl unruled_wellFormed none
  refine ⟨Files.differAt_entry (by decide), by decide, by decide, by decide, r, r', ok, ok', ?_⟩
  rw [nothing_reported one.reports]
  have kept : ("app.py" : OsString) ∈ r'.dependents.filter (Engine.outside [] ["rules.txt"]) :=
    List.mem_filter.mpr ⟨app_reported two.reports, by decide⟩
  intro same
  rw [same] at kept
  cases kept

/-- A file that imports the target as well. -/
def extraFile : OsString × Node := ("extra.py", .file "import util\n".toUTF8)

/-- Beside an ignore file that is a link, a further file makes no difference to the others. -/
theorem impact_local_extra :
    ((∃ r, (honouring.analyzeImpact ⟨.dir (linkedRules ++ [extraFile]), []⟩ "util.py" "." none).result =
        .ok r) ↔
      ∃ r, (honouring.analyzeImpact unruled "util.py" "." none).result = .ok r) ∧
    ∀ r r', (honouring.analyzeImpact ⟨.dir (linkedRules ++ [extraFile]), []⟩ "util.py" "." none).result =
        .ok r →
      (honouring.analyzeImpact unruled "util.py" "." none).result = .ok r' →
      ∃ base, Files.locate ⟨.dir (linkedRules ++ [extraFile]), []⟩ "." = .ok base ∧
        Engine.SameBut base ["extra.py"] r r' := by
  refine Engine.impact_local rfl ⟨Files.differAt_entry (by decide),
    Node.wellFormed_flat (by decide) (by decide) (by decide), unruled_wellFormed,
    by decide, by decide, fun _ dir isDir => ?_, fun _ dir isDir => ?_⟩
  · obtain rfl := Files.eq_nil_of_isDir (by decide) isDir
    decide
  · obtain rfl := Files.eq_nil_of_isDir (by decide) isDir
    decide

end Ripple
