import Ripple.Proofs.Analysis.ReverseSearch

/-!
A search does not depend on its schedule. Whichever candidates come too late, in whatever order the
workers take the others and whoever of them takes the next step, the report is the part of the full
one that is about the candidates in time, and it says whether this is all of it.
-/

namespace Ripple.Engine

open Ripple.Path

/-- The files that a search for the dependents of a target walks. -/
def walked (e : Engine) (fs : Files) (target root : List OsString) : List (List OsString) :=
  if (textStem? (Files.pathOf target)).isSome then fs.walk (e.searchFilter target) root else []

/-- The full report of a search: the walked files that import the target, in the order of their
components. -/
structure IsFull (e : Engine) (fs : Files) (target root : List OsString) (full : DependentScan) :
    Prop where
  files_eq : ∃ paths : List (List OsString), paths.Pairwise (· < ·) ∧
    full.files = paths.map ofComponents ∧
    ∀ below, below ∈ paths ↔ below ∈ e.walked fs target root ∧
      e.Imports fs target (root ++ below)
  scanned_eq : full.scanned = (e.walked fs target root).length
  complete : full.complete = true

/-- A report about those of the walked files that come before the deadline. -/
structure Restricts (expired : Deadline) (walked : List (List OsString))
    (full scan : DependentScan) : Prop where
  files_eq : scan.files = full.files.filter fun path => !expired path
  scanned_eq : scan.scanned = (walked.filter fun below => !expired (ofComponents below)).length
  files_le : scan.files.length ≤ scan.scanned
  complete_iff : scan.complete = true ↔ ∀ below ∈ walked, expired (ofComponents below) = false
  eq_of_complete : scan.complete = true → scan = full

theorem reported_length_le (q : Query) (expired : Deadline) (candidates : List (List OsString)) :
    (candidates.filter (q.reports expired)).length ≤
      (candidates.filter (Query.inTime expired)).length := by
  rw [← List.countP_eq_length_filter, ← List.countP_eq_length_filter]
  apply List.countP_mono_left
  intro below _ reported
  rw [Query.reports, Bool.and_eq_true] at reported
  exact reported.1

/-- For any schedule and any answers of the deadline, a search reports the part of the full report
that is about the candidates in time. -/
theorem findDependents_restricts (e : Engine) (fs : Files) (expired : Deadline)
    (target root : List OsString) (schedule : Schedule) :
    e.IsFull fs target root (e.findDependents fs (fun _ => false) target root).1 ∧
      Restricts expired (e.walked fs target root)
        (e.findDependents fs (fun _ => false) target root).1
        (e.findDependents fs expired target root schedule).1 := by
  cases stemmed : textStem? (Files.pathOf target) with
  | none =>
    -- Without a name to look for, no file is walked and the report is complete.
    have nothing : e.walked fs target root = [] := by simp [walked, stemmed]
    rw [findDependents_of_no_stem _ _ stemmed, findDependents_of_no_stem _ _ stemmed, nothing]
    refine ⟨⟨⟨[], .nil, rfl, by simp [nothing]⟩, by simp [nothing], rfl⟩, ?_⟩
    constructor <;> simp
  | some stem =>
    have all : e.walked fs target root = fs.walk (e.searchFilter target) root := by
      simp [walked, stemmed]
    rw [findDependents_unlimited (fun _ => rfl) fs root .sequential stemmed,
      findDependents_eq fs expired root schedule stemmed, ← all]
    generalize walking : e.walked fs target root = walked
    refine ⟨⟨⟨_, ascending_ascends _, rfl, fun below => ?_⟩, ?_, rfl⟩, ?_, rfl, ?_, ?_, ?_⟩
    · simp [mem_ascending, isDependent_iff stemmed, walking]
    · rw [walking]
    · -- What comes too late can be left out before or after the paths are put in order.
      have early : walked.filter ((e.query fs root stem).reports expired) =
          (walked.filter (e.query fs root stem).isDependent).filter (Query.inTime expired) := by
        rw [List.filter_filter]
        rfl
      rw [early, ascending_filter, List.filter_map]
      rfl
    · rw [List.length_map]
      exact Nat.le_trans (length_ascending_le _) (reported_length_le _ expired walked)
    · simp [Query.inTime]
    · intro complete
      have early : ∀ below ∈ walked, Query.inTime expired below = true :=
        List.all_eq_true.mp complete
      have reported : walked.filter ((e.query fs root stem).reports expired) =
          walked.filter (e.query fs root stem).isDependent :=
        List.filter_congr fun below member => by rw [Query.reports, early below member, Bool.true_and]
      rw [reported, List.filter_eq_self.mpr early, List.all_eq_true.mpr early]

end Ripple.Engine
