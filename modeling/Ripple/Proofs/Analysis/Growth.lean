import Mathlib.Algebra.Order.BigOperators.Group.List
import Mathlib.Algebra.Order.Group.Nat
import Ripple.Proofs.Analysis.Locality
import Ripple.Proofs.Analysis.Scoring

/-!
Growing projects. Files that are added take nothing from what is found in the others, so the
dependents and the recorded uses can only become more, and the points for them with them.
-/

namespace Ripple

open Ripple.Path Node

/-- A tree that has all that another one has. -/
structure Files.Grows (old new : Files) : Prop where
  workDir : new.workDir = old.workDir
  kept : ∀ location kind, old.kindAt? location = some kind → new.kindAt? location = some kind

theorem Files.Grows.keeps {old new : Files} (grows : Grows old new) :
    Keeps (fun _ => False) old new where
  workDir := grows.workDir
  kept location kind _ := grows.kept location kind
  plain _ _ impossible := impossible.elim

/-- If no ignore file of an old directory comes to lead somewhere, all of them say the same. -/
theorem Files.Grows.sameRules {old new : Files} (grows : Grows old new)
    (unruled : ∀ dir, old.kindAt? dir = some .dir → ∀ reached,
      new.locate (pathOf (dir ++ [ignoreFile])) = .ok reached →
      old.locate (pathOf (dir ++ [ignoreFile])) = .ok reached) : SameRules old new := by
  intro dir isDir
  refine ignoreRules_congr (fun reached leads => ⟨grows.keeps.locate not_false leads, ?_⟩)
    (unruled dir isDir)
  obtain ⟨kind, stands⟩ := locate_stands (isAbsolute_pathOf _) leads
  exact grows.keeps.readAt not_false stands

namespace Engine

/-- If no symbol loses a use, there are no fewer uses in all. -/
theorem total_trackUsages_mono {e : Engine} {fs fs' : Files} {root : List OsString}
    {files files' : List OsString} (across : ∀ name,
      (e.usesAcross fs root files name).Sublist (e.usesAcross fs' root files' name))
    (exports : List Export) : (e.trackUsages fs root exports files).total ≤
      (e.trackUsages fs' root exports files').total := by
  rw [total_trackUsages, total_trackUsages, List.length_flatMap, List.length_flatMap]
  exact List.sum_le_sum fun name _ => (across name).length_le

/-- Growth: a report on a larger tree has all dependents and all uses of the report on the smaller
one, and no fewer points. -/
theorem growth_never_lowers_risk {e : Engine} {old new : Files} {file root : OsString}
    {change : Option String} {r : ImpactReport} (unlimited : e.settings.deadlineMs = none)
    (formed : old.top.WellFormed) (formed' : new.top.WellFormed) (grows : Files.Grows old new)
    (unruled : e.settings.honourIgnoreFiles = true → ∀ dir, old.kindAt? dir = some .dir →
      ∀ reached, new.locate (Files.pathOf (dir ++ [Files.ignoreFile])) = .ok reached →
        old.locate (Files.pathOf (dir ++ [Files.ignoreFile])) = .ok reached)
    (succeeds : (e.analyzeImpact old file root change).result = .ok r) :
    ∃ r', (e.analyzeImpact new file root change).result = .ok r' ∧
      (∀ path ∈ r.dependents, path ∈ r'.dependents) ∧
      (∀ name, ∀ use ∈ r.usages.uses name, use ∈ r'.usages.uses name) ∧
      r.risk.score ≤ r'.risk.score ∧ r.risk.level ≤ r'.risk.level := by
  have rules : e.settings.honourIgnoreFiles = true → Files.SameRules old new := fun honoured =>
    grows.sameRules (unruled honoured)
  obtain ⟨source, target, base, resolves, was⟩ :=
    exists_describes unlimited formed succeeds
  obtain ⟨r', succeeds', is⟩ :=
    (resolves.keep grows.keeps not_false).exists_report unlimited formed' change
  have exports : r'.exports = r.exports := is.exports.trans was.exports.symm
  -- Each dependent is judged by itself, so it is one in the larger tree, with the same lines.
  have again : ∀ path ∈ r.dependents, path ∈ r'.dependents ∧
      e.usableLines new base path = e.usableLines old base path := fun path member =>
    was.reports.keep grows.keeps formed formed' rules resolves.isDir is.reports not_false member
  have sub : r.dependents.Sublist r'.dependents :=
    sublist_of_ascending (List.pairwise_map.mp was.reports.ascends)
      (List.pairwise_map.mp is.reports.ascends) fun path member => (again path member).1
  have across := usesAcross_keep sub fun path member => (again path member).2
  have points : r.risk.score ≤ r'.risk.score := by
    rw [was.risk, is.risk, was.usages, is.usages, exports]
    exact Risk.assess_mono sub.length_le (total_trackUsages_mono across _) _ _
  refine ⟨r', succeeds', fun path member => (again path member).1, ?_, points,
    RiskLevel.ofScore_mono points⟩
  intro name use member
  rw [was.usages, uses_trackUsages] at member
  rw [is.usages, exports, uses_trackUsages]
  split at member
  next listed =>
    rw [if_pos listed]
    exact (across name).subset member
  next => cases member

end Engine

theorem Files.DifferAt.grows {file : List OsString} {old new : Files} (differ : DifferAt file new old)
    (absent : old.kindAt? file = none) : Grows old new where
  workDir := differ.workDir.symm
  kept location kind found := by
    rwa [← differ.elsewhere location]
    rintro rfl
    rw [absent] at found
    cases found

/-- A new file lowers the risk if an ignore file that led nowhere leads to it: it is no ignore file
itself, but it hides a dependent. -/
theorem linked_rules_lower_risk :
    Files.Grows unruled ruled ∧ Files.DifferAt ["rules.txt"] ruled unruled ∧
      unruled.kindAt? ["rules.txt"] = none ∧
      (["rules.txt"] : List OsString).getLast? ≠ some Files.ignoreFile ∧
      ∃ r r', (honouring.analyzeImpact unruled "util.py" "." none).result = .ok r ∧
        (honouring.analyzeImpact ruled "util.py" "." none).result = .ok r' ∧
        ("app.py" : OsString) ∈ r.dependents ∧ ("app.py" : OsString) ∉ r'.dependents ∧
        r'.risk.score < r.risk.score := by
  obtain ⟨r, ok, was⟩ := unruled_resolves.exists_report (e := honouring) rfl unruled_wellFormed none
  obtain ⟨r', ok', is⟩ := ruled_resolves.exists_report (e := honouring) rfl ruled_wellFormed none
  have member := app_reported was.reports
  have nothing := nothing_reported is.reports
  have differ : Files.DifferAt ["rules.txt"] ruled unruled := Files.differAt_entry (by decide)
  refine ⟨differ.grows rfl, differ, rfl, by decide, r, r', ok, ok', member, by simp [nothing], ?_⟩
  -- Both reports have the points for the exports, and one of them those for a dependent.
  have unused : r'.usages.total = 0 := by
    rw [is.usages, nothing, Engine.total_trackUsages, List.length_eq_zero_iff,
      List.flatMap_eq_nil_iff]
    intro name _
    rw [Engine.usesAcross]
    split <;> rfl
  have points : 1 ≤ (Risk.ofDependents r.dependents.length).score :=
    Risk.ofDependents_mono (List.length_pos_of_mem member)
  have isolated : (Risk.ofDependents ([] : List OsString).length).score = 0 := rfl
  have none : (Risk.ofUsages 0).score = 0 := rfl
  rw [was.risk, is.risk, unused, nothing, is.exports, was.exports, Risk.score_assess,
    Risk.score_assess]
  omega

/-- Beside an ignore file that leads nowhere, a further dependent takes nothing away. -/
theorem growth_never_lowers_risk_extra :
    ∃ r, (honouring.analyzeImpact unruled "util.py" "." none).result = .ok r ∧
      ∃ r', (honouring.analyzeImpact ⟨.dir (linkedRules ++ [extraFile]), []⟩ "util.py" "."
          none).result = .ok r' ∧
        (∀ path ∈ r.dependents, path ∈ r'.dependents) ∧
        (∀ name, ∀ use ∈ r.usages.uses name, use ∈ r'.usages.uses name) ∧
        r.risk.score ≤ r'.risk.score ∧ r.risk.level ≤ r'.risk.level := by
  obtain ⟨r, succeeds⟩ : ∃ r, (honouring.analyzeImpact unruled "util.py" "." none).result = .ok r :=
    ⟨_, Engine.analyzeImpact_eq_ok_iff.mpr ⟨_, _, _, unruled_resolves, rfl⟩⟩
  refine ⟨r, succeeds, Engine.growth_never_lowers_risk rfl unruled_wellFormed
    (Node.wellFormed_flat (by decide) (by decide) (by decide))
    ((Files.differAt_entry (by decide)).grows rfl) (fun _ dir isDir reached leads => ?_) succeeds⟩
  obtain rfl := Files.eq_nil_of_isDir (by decide) isDir
  have nowhere : Files.locate ⟨.dir (linkedRules ++ [extraFile]), []⟩
      (Files.pathOf ([] ++ [Files.ignoreFile])) = .error .notFound := by decide
  rw [nowhere] at leads
  cases leads

end Ripple
