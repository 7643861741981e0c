import Ripple.Files.Path
import Ripple.Proofs.Text.OsString

/-!
Lists in ascending order without repetitions. Sorting brings equal members together, and of equal
neighbours only one is kept; so the result has the members of the list and ascends strictly.
-/

namespace Ripple

variable {α : Type} [DecidableEq α]

/-- A list with only one of equal neighbours. -/
def collapse (xs : List α) : List α :=
  xs.foldr (fun x rest => if rest.head? = some x then rest else x :: rest) []

theorem collapse_cons (x : α) (xs : List α) :
    collapse (x :: xs) =
      if (collapse xs).head? = some x then collapse xs else x :: collapse xs := rfl

theorem mem_collapse {xs : List α} {y : α} : y ∈ collapse xs ↔ y ∈ xs := by
  induction xs with
  | nil => rfl
  | cons x xs ih =>
    rw [collapse_cons, List.mem_cons, ← ih]
    split
    next first =>
      constructor
      · exact .inr
      · rintro (rfl | member)
        · exact List.mem_of_head? first
        · exact member
    next => exact List.mem_cons

theorem collapse_sublist (xs : List α) : (collapse xs).Sublist xs := by
  induction xs with
  | nil => exact .slnil
  | cons x xs ih =>
    rw [collapse_cons]
    split
    · exact ih.cons x
    · exact ih.cons_cons x

section Order

variable [LE α] [LT α] [Std.IsLinearOrder α] [Std.LawfulOrderLT α]

theorem collapse_ascends {xs : List α} (sorted : xs.Pairwise (· ≤ ·)) :
    (collapse xs).Pairwise (· < ·) := by
  induction xs with
  | nil => exact .nil
  | cons x xs ih =>
    obtain ⟨first, others⟩ := List.pairwise_cons.mp sorted
    have rest := ih others
    rw [collapse_cons]
    split
    next => exact rest
    next different =>
      refine List.pairwise_cons.mpr ⟨fun y member => ?_, rest⟩
      have below := first y (mem_collapse.mp member)
      refine Std.lt_of_le_of_ne below fun same => ?_
      -- Equal members are neighbours: what comes first behind `x` is neither above nor below it.
      cases shape : collapse xs with
      | nil => simp [shape] at member
      | cons z zs =>
        rw [shape] at rest member different
        rcases List.mem_cons.mp member with rfl | later
        · simp [same] at different
        · have above := (List.pairwise_cons.mp rest).1 y later
          have start := first z (mem_collapse.mp (by simp [shape]))
          exact Std.not_lt.mpr start (same ▸ above)

omit [DecidableEq α] in
/-- Lists whose keys ascend strictly are equal if they have the same members. -/
theorem eq_of_ascending {β : Type} {key : β → α} {xs ys : List β}
    (sortedX : xs.Pairwise (key · < key ·)) (sortedY : ys.Pairwise (key · < key ·))
    (same : ∀ a, a ∈ xs ↔ a ∈ ys) : xs = ys := by
  have distinct : ∀ {zs : List β}, zs.Pairwise (key · < key ·) → zs.Nodup := fun sorted =>
    sorted.imp fun below equal => Std.ne_of_lt below (congrArg key equal)
  have perm : xs.Perm ys := (List.perm_ext_iff_of_nodup (distinct sortedX) (distinct sortedY)).mpr same
  exact perm.eq_of_pairwise (fun a b _ _ below above =>
    absurd above (Std.not_lt.mpr (Std.le_of_lt below))) sortedX sortedY

omit [DecidableEq α] in
/-- Of two lists whose keys ascend strictly, one is part of the other if its members are. -/
theorem sublist_of_ascending {β : Type} [DecidableEq β] {key : β → α} {xs ys : List β}
    (sortedX : xs.Pairwise (key · < key ·)) (sortedY : ys.Pairwise (key · < key ·))
    (sub : ∀ a ∈ xs, a ∈ ys) : xs.Sublist ys := by
  have part : xs = ys.filter (· ∈ xs) := by
    refine eq_of_ascending sortedX (sortedY.filter _) fun a => ?_
    rw [List.mem_filter, decide_eq_true_iff]
    exact ⟨fun member => ⟨sub a member, member⟩, And.right⟩
  rw [part]
  exact List.filter_sublist

end Order

theorem Text.mem_ascending {texts : List String} {t : String} :
    t ∈ ascending texts ↔ t ∈ texts :=
  mem_collapse.trans (List.mergeSort_perm _ _).mem_iff

theorem Path.mem_ascending {paths : List (List OsString)} {p : List OsString} :
    p ∈ ascending paths ↔ p ∈ paths :=
  mem_collapse.trans (List.mergeSort_perm _ _).mem_iff

omit [DecidableEq α] in
theorem pairwise_mergeSort_le [LE α] [Std.IsLinearOrder α] {le : α → α → Bool}
    (compares : ∀ a b, le a b = true ↔ a ≤ b) (xs : List α) :
    (xs.mergeSort le).Pairwise (· ≤ ·) := by
  have sorted : (xs.mergeSort le).Pairwise fun a b => le a b = true :=
    List.pairwise_mergeSort (fun a b c => by simpa [compares] using Std.le_trans)
      (fun a b => by simpa [compares] using Std.le_total) xs
  exact sorted.imp (compares _ _).mp

omit [DecidableEq α] in
/-- A stable sort keeps the order of members among which the comparison makes no difference. -/
theorem filter_mergeSort_of_level {le : α → α → Bool} {keep : α → Bool}
    (trans : ∀ a b c, le a b = true → le b c = true → le a c = true)
    (total : ∀ a b, (le a b || le b a) = true)
    (level : ∀ a b, keep a = true → keep b = true → le a b = true) (xs : List α) :
    (xs.mergeSort le).filter keep = xs.filter keep := by
  have sorted : (xs.filter keep).Pairwise fun a b => le a b = true := by
    refine List.pairwise_of_forall_mem_list fun a here b there => ?_
    exact level a b (List.mem_filter.mp here).2 (List.mem_filter.mp there).2
  have kept : (xs.filter keep).Sublist (xs.mergeSort le) :=
    List.sublist_mergeSort trans total sorted List.filter_sublist
  have among : (xs.filter keep).Sublist ((xs.mergeSort le).filter keep) := by
    simpa using kept.filter keep
  -- The sort adds no members, so a part of the same length is the whole.
  exact (among.eq_of_length ((List.mergeSort_perm xs le).filter keep).length_eq.symm).symm

theorem Text.ascending_ascends (texts : List String) : (ascending texts).Pairwise (· < ·) :=
  collapse_ascends (pairwise_mergeSort_le (by simp) texts)

theorem Path.ascending_ascends (paths : List (List OsString)) :
    (ascending paths).Pairwise (· < ·) :=
  collapse_ascends (pairwise_mergeSort_le (fun a b => by rw [decide_eq_true_eq, Std.not_lt]) paths)

theorem Path.eq_of_ascends {ps qs : List (List OsString)} (sortedP : ps.Pairwise (· < ·))
    (sortedQ : qs.Pairwise (· < ·)) (same : ∀ p, p ∈ ps ↔ p ∈ qs) : ps = qs :=
  eq_of_ascending (α := List OsString) (show ps.Pairwise fun p q => id p < id q from sortedP) sortedQ
    same

theorem Path.ascending_congr {ps qs : List (List OsString)} (same : ∀ p, p ∈ ps ↔ p ∈ qs) :
    ascending ps = ascending qs :=
  eq_of_ascends (ascending_ascends ps) (ascending_ascends qs) fun p => by
    rw [mem_ascending, mem_ascending, same]

theorem Path.ascending_filter (paths : List (List OsString)) (keep : List OsString → Bool) :
    ascending (paths.filter keep) = (ascending paths).filter keep :=
  eq_of_ascends (ascending_ascends _) ((ascending_ascends paths).filter _) fun p => by
    simp only [mem_ascending, List.mem_filter]

theorem Path.length_ascending_le (paths : List (List OsString)) :
    (ascending paths).length ≤ paths.length := by
  have sorted := (List.mergeSort_perm paths fun a b => decide (¬ b < a)).length_eq
  rw [← sorted]
  exact (collapse_sublist _).length_le

end Ripple
