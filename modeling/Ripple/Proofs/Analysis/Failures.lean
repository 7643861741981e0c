import Ripple.Proofs.Analysis.ReverseSearch
import Ripple.Proofs.Files.Following

/-!
Why an analysis fails. The target is read first, then the root is looked for; nothing that comes
later can fail, so what the candidates hold does not matter. Where the importers of a file are not
searched for, nothing is read but the file.
-/

namespace Ripple.Engine

/-- An analysis of a file below a root fails exactly if the file cannot be read or the root is no
directory, and the file is looked at first. -/
structure FailsAlone {α : Type} (fs : Files) (file root : OsString)
    (result : Except AnalysisError α) : Prop where
  notFound_iff : ∀ f, result = .error (.notFound f) ↔
    f = file ∧ fs.Reads file (.error .notFound)
  unreadable_iff : ∀ f cause, result = .error (.unreadable f cause) ↔
    f = file ∧ cause ≠ .notFound ∧ fs.Reads file (.error cause)
  rootNotFound_iff : ∀ r, result = .error (.rootNotFound r) ↔
    r = root ∧ (∃ source, fs.Reads file (.ok source)) ∧ ¬ fs.LeadsToDir root
  ok_iff : (∃ value, result = .ok value) ↔
    (∃ source, fs.Reads file (.ok source)) ∧ fs.LeadsToDir root

section Failures

variable {α : Type} {fs : Files} {file root : OsString} {source : String} {cause : AccessError}
  {result : Except AnalysisError α}

theorem ofAccess_eq_notFound_iff {f : OsString} :
    AnalysisError.ofAccess file cause = .notFound f ↔ f = file ∧ cause = .notFound := by
  cases cause <;> simp [AnalysisError.ofAccess, eq_comm]

theorem ofAccess_eq_unreadable_iff {f : OsString} {cause' : AccessError} :
    AnalysisError.ofAccess file cause = .unreadable f cause' ↔
      f = file ∧ cause' ≠ .notFound ∧ cause = cause' := by
  cases cause <;> cases cause' <;> simp [AnalysisError.ofAccess, eq_comm]

theorem ofAccess_ne_rootNotFound {r : OsString} :
    AnalysisError.ofAccess file cause ≠ .rootNotFound r := by
  cases cause <;> simp [AnalysisError.ofAccess]

/-- The reading of the file, then the look at the root decide. -/
theorem failsAlone_of_order
    (refuses : ∀ cause, readTarget fs file = .error (.ofAccess file cause) →
      result = .error (.ofAccess file cause))
    (rootless : ∀ source, readTarget fs file = .ok source → ¬ fs.LeadsToDir root →
      result = .error (.rootNotFound root))
    (succeeds : ∀ source, readTarget fs file = .ok source → fs.LeadsToDir root →
      ∃ value, result = .ok value) : FailsAlone fs file root result := by
  have reads : ∀ outcome, fs.Reads file outcome ↔ fs.readText file = outcome :=
    fun outcome => Files.readText_eq_iff.symm
  -- What comes of reading the file settles all four questions, save for the root.
  cases read : fs.readText file with
  | error cause =>
    have failed := refuses cause (by rw [readTarget, read])
    constructor
    · intro f
      rw [failed, reads, read, Except.error.injEq, Except.error.injEq, ofAccess_eq_notFound_iff]
    · intro f cause'
      rw [failed, reads, read, Except.error.injEq, Except.error.injEq, ofAccess_eq_unreadable_iff]
    · intro r
      simp [failed, reads, read, ofAccess_ne_rootNotFound]
    · simp [failed, reads, read]
  | ok source =>
    have target : readTarget fs file = .ok source := by rw [readTarget, read]
    by_cases isDir : fs.LeadsToDir root
    · obtain ⟨value, done⟩ := succeeds source target isDir
      constructor <;> simp [done, reads, read, isDir]
    · have failed := rootless source target isDir
      constructor <;> simp [failed, reads, read, isDir, eq_comm]

theorem locatePair_rootless (file : OsString) (notDir : ¬ fs.LeadsToDir root) :
    locatePair fs file root = .error (.rootNotFound root) := by
  rw [locatePair, if_neg fun isDir => notDir (Files.isDir_eq_true_iff.mp isDir)]

theorem exists_locatePair (read : readTarget fs file = .ok source) (isDir : fs.LeadsToDir root) :
    ∃ pair, locatePair fs file root = .ok pair := by
  obtain ⟨target, located, _⟩ := readTarget_eq_ok_iff.mp read
  obtain ⟨base, leads, found⟩ := isDir
  exact ⟨(target, base),
    locatePair_eq_ok_iff.mpr ⟨located, Files.locate_eq_iff.mpr leads, found⟩⟩

end Failures

theorem analyzeImpact_failsAlone (e : Engine) (fs : Files) (file root : OsString)
    (change : Option String) (expired : Deadline) (schedule : Schedule) :
    FailsAlone fs file root (e.analyzeImpact fs file root change expired schedule).result := by
  rw [analyzeImpact, result_recorded, impactReport]
  apply failsAlone_of_order
  · intro cause refused
    rw [refused]
    rfl
  · intro source read notDir
    rw [read, locatePair_rootless file notDir]
    rfl
  · intro source read isDir
    obtain ⟨pair, located⟩ := exists_locatePair read isDir
    rw [read, located]
    exact ⟨_, rfl⟩

theorem mapDependencies_failsAlone (e : Engine) (fs : Files) (file root : OsString)
    (expired : Deadline) (schedule : Schedule) :
    FailsAlone fs file root
      (e.mapDependencies fs file (some root) true expired schedule).result := by
  rw [mapDependencies, result_recorded, dependencyMap]
  apply failsAlone_of_order
  · intro cause refused
    rw [refused]
    rfl
  · intro source read notDir
    simp only [read, searchDependents, locatePair_rootless file notDir]
    rfl
  · intro source read isDir
    obtain ⟨pair, located⟩ := exists_locatePair read isDir
    simp only [read, searchDependents, located]
    exact ⟨_, rfl⟩

/-- A map without a search depends on the text of the file only. -/
theorem mapDependencies_local (e : Engine) {fs fs' : Files} {file : OsString} {reverse : Bool}
    {root root' : Option OsString} (same : fs.readText file = fs'.readText file)
    (unsearched : reverse = true → root = none ∧ root' = none) (expired expired' : Deadline)
    (schedule schedule' : Schedule) :
    e.mapDependencies fs file root reverse expired schedule =
      e.mapDependencies fs' file root' reverse expired' schedule' := by
  have read : readTarget fs file = readTarget fs' file := by rw [readTarget, readTarget, same]
  rw [mapDependencies, mapDependencies, dependencyMap, dependencyMap, read]
  cases reverse with
  | false => rfl
  | true =>
    obtain ⟨rfl, rfl⟩ := unsearched rfl
    rfl

/-- The analyses fail for the reasons that are named and for no others: whether the file can be read
comes first, then whether the root is a directory. A map without a search depends on what comes of
reading the file alone. -/
theorem analyses_fail_exactly (e : Engine) (fs : Files) (file root : OsString)
    (change : Option String) (expired : Deadline) (schedule : Schedule) :
    FailsAlone fs file root (e.analyzeImpact fs file root change expired schedule).result ∧
    FailsAlone fs file root
      (e.mapDependencies fs file (some root) true expired schedule).result ∧
    ∀ (fs' : Files) (root₁ root₂ : Option OsString) (reverse : Bool) (expired' : Deadline)
      (schedule' : Schedule), fs.readText file = fs'.readText file →
      (reverse = true → root₁ = none ∧ root₂ = none) →
      e.mapDependencies fs file root₁ reverse expired schedule =
        e.mapDependencies fs' file root₂ reverse expired' schedule' :=
  ⟨e.analyzeImpact_failsAlone fs file root change expired schedule,
    e.mapDependencies_failsAlone fs file root expired schedule,
    fun _ _ _ _ expired' schedule' same unsearched =>
      e.mapDependencies_local same unsearched expired expired' schedule schedule'⟩

/-- Another project with the same target, which is no link here, and with nothing beside it. -/
def bareProject : Files :=
  ⟨.dir [("p", .dir [("util.py", .file "def f():\n    pass\n".toUTF8)])], []⟩

/-- A target that is reached through a link is read before a root that is a file is refused, and
without a search neither the other files nor the roots matter. -/
theorem analyses_fail_exactly_bare :
    (analyzeImpact ⟨{}, .builtin⟩ linkedProject "p/util.py" "p/app.py" none).result =
      .error (.rootNotFound "p/app.py") ∧
    linkedProject.readText "p/util.py" = bareProject.readText "p/util.py" ∧
    mapDependencies ⟨{}, .builtin⟩ linkedProject "p/util.py" (some "nowhere") false =
      mapDependencies ⟨{}, .builtin⟩ bareProject "p/util.py" none false := by
  obtain ⟨impact, _, alone⟩ := analyses_fail_exactly ⟨{}, .builtin⟩ linkedProject "p/util.py"
    "p/app.py" none (Settings.deadline {}) .sequential
  have read : linkedProject.readText "p/util.py" = .ok "def f():\n    pass\n" := by decide
  have same : linkedProject.readText "p/util.py" = bareProject.readText "p/util.py" := by decide
  have noDir : ¬ linkedProject.LeadsToDir "p/app.py" := by
    rw [← Files.isDir_eq_true_iff]
    decide
  exact ⟨(impact.rootNotFound_iff "p/app.py").mpr ⟨rfl, ⟨_, Files.readText_eq_iff.mp read⟩, noDir⟩,
    same, alone bareProject (some "nowhere") none false _ _ same (by simp)⟩

end Ripple.Engine
