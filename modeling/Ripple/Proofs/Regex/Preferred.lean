import Ripple.Proofs.Regex.Captures

/-!
The preferred way through an expression. Where every way on is open, the preferred way through a
sequence takes the preferred way through each part; a greedy repetition goes on as long as it can.
-/

namespace Ripple

open Rounds

theorem exists_of_head?_flatMap {σ τ : Type} {f : σ → List τ} {es : List σ} {n : τ}
    (first : (es.flatMap f).head? = some n) : ∃ e ∈ es, (f e).head? = some n := by
  induction es with
  | nil => simp at first
  | cons e es ih =>
    rw [List.flatMap_cons, List.head?_append] at first
    cases here : (f e).head? with
    | some x =>
      rw [here, Option.some_or] at first
      exact ⟨e, List.mem_cons_self, here.trans first⟩
    | none =>
      rw [here, Option.none_or] at first
      obtain ⟨g, member, found⟩ := ih first
      exact ⟨g, List.mem_cons_of_mem _ member, found⟩

theorem head?_flatMap_of_ne_nil {σ τ : Type} {f : σ → List τ} (passable : ∀ e, f e ≠ []) (es : List σ) :
    (es.flatMap f).head? = es.head?.bind fun e => (f e).head? := by
  cases es with
  | nil => rfl
  | cons e es =>
    rw [List.flatMap_cons, List.head?_append_of_ne_nil _ (passable e)]
    rfl

namespace Rounds

theorem ends_ne_nil {ν : Type} (next : ν → List ν) (greedy : Bool) (n : Nat) (e : ν) :
    ends next greedy n e ≠ [] :=
  List.ne_nil_of_mem (self_mem_ends next greedy n e)

/-- The preferred end of greedy rounds is reached by the preferred way through each round, as long
as there is one. -/
theorem head?_ends {ν : Type} {next : ν → List ν} {n : Nat} {e f : ν}
    (first : (ends next true n e).head? = some f) :
    ∃ k ≤ n, Iterated (fun a b => (next a).head? = some b) k e f ∧ (k < n → next f = []) := by
  induction n generalizing e with
  | zero =>
    simp only [ends, List.head?_cons, Option.some.injEq] at first
    exact ⟨0, Nat.le_refl _, first.symm, by simp⟩
  | succ n ih =>
    cases more : next e with
    | nil =>
      simp only [ends, more, if_true, List.flatMap_nil, List.nil_append, List.head?_cons,
        Option.some.injEq] at first
      subst first
      exact ⟨0, Nat.zero_le _, rfl, fun _ => more⟩
    | cons g gs =>
      have rest : (ends next true n g).head? = some f := by
        rw [← first, ends, if_pos rfl, more, List.flatMap_cons, List.append_assoc,
          List.head?_append_of_ne_nil _ (ends_ne_nil next true n g)]
      obtain ⟨k, bound, iterated, stops⟩ := ih rest
      exact ⟨k + 1, by omega, ⟨g, by simp [more], iterated⟩, fun less => stops (by omega)⟩

end Rounds

namespace Regex

/-- The preferred way through an expression leads from one match to another. -/
def Picks (r : Regex) (m n : Match) : Prop := (r.outcomes m).head? = some n

theorem Picks.mem {r : Regex} {m n : Match} (picks : r.Picks m n) : n ∈ r.outcomes m :=
  List.mem_of_head? picks

theorem Picks.takes {r : Regex} {m n : Match} (picks : r.Picks m n) : r.Takes m.stop n.stop :=
  outcomes_takes picks.mem

theorem picks_seqs_append {rs ss : List Regex} {m n : Match}
    (picks : (seqs (rs ++ ss)).Picks m n) :
    ∃ o ∈ (seqs rs).outcomes m, (seqs ss).Picks o n := by
  rw [Picks, outcomes_seqs_append] at picks
  exact exists_of_head?_flatMap picks

/-- If the second part can always be passed, the first part is passed in the preferred way. -/
theorem picks_seqs_append_of_passable {rs ss : List Regex} {m n : Match}
    (picks : (seqs (rs ++ ss)).Picks m n) (passable : ∀ m, (seqs ss).outcomes m ≠ []) :
    ∃ o, (seqs rs).Picks m o ∧ (seqs ss).Picks o n := by
  rw [Picks, outcomes_seqs_append, head?_flatMap_of_ne_nil passable] at picks
  obtain ⟨o, first, second⟩ := Option.bind_eq_some_iff.mp picks
  exact ⟨o, first, second⟩

theorem picks_group {i : Nat} {r : Regex} {m n : Match} (picks : (group i r).Picks m n) :
    ∃ o, r.Picks (m.enter i) o ∧ n = o.leave i := by
  rw [Picks, outcomes, List.head?_map] at picks
  obtain ⟨o, first, rfl⟩ := Option.map_eq_some_iff.mp picks
  exact ⟨o, first, rfl⟩

theorem optional_ne_nil (r : Regex) (max : Option Nat) (m : Match) :
    (rep r 0 max true).outcomes m ≠ [] := by
  simp only [outcomes, exactly, List.flatMap_singleton]
  exact ends_ne_nil _ _ _ _

theorem picks_loop {r : Regex} {m n : Match} (picks : (rep r 0 none true).Picks m n) :
    ∃ k, Iterated r.Picks k m n := by
  simp only [Picks, outcomes, exactly, List.flatMap_singleton] at picks
  obtain ⟨k, _, iterated, _⟩ := head?_ends picks
  exact ⟨k, iterated⟩

/-- A greedy repetition ends where there is no way to repeat it. -/
theorem picks_rep_ends {r : Regex} (consumes : r.nullable = false) {least : Nat} {m n : Match}
    (picks : (rep r least none true).Picks m n) : r.outcomes n = [] := by
  rw [Picks, outcomes] at picks
  obtain ⟨o, _, first⟩ := exists_of_head?_flatMap picks
  obtain ⟨k, bound, iterated, stops⟩ := head?_ends first
  have ways : Iterated (fun e f => f ∈ r.outcomes e) k o n :=
    iterated.map id fun _ _ head => List.mem_of_head? head
  have consumed := ways.le_rank fun e f member => (outcomes_takes (n := f) member).rest_lt consumes
  by_contra more
  obtain ⟨f, member⟩ := List.exists_mem_of_ne_nil _ more
  have shorter := (outcomes_takes member).rest_lt consumes
  simp only [Option.map_none, Option.getD_none] at bound stops
  exact more (stops (by omega))

/-- No member of its set follows behind a greedy run. -/
theorem picks_run_ends {s : CharSet} {least : Nat} {m n : Match}
    (picks : (rep (set s) least none true).Picks m n) : ∀ c ∈ n.stop.rest.head?, s.mem c = false := by
  have none := picks_rep_ends rfl picks
  intro c next
  cases rest : n.stop.rest with
  | nil => simp [rest] at next
  | cons d cs =>
    obtain rfl : d = c := by simpa [rest] using next
    by_contra passes
    rw [Bool.not_eq_false] at passes
    simp [outcomes, Match.step?, rest, passes] at none

/-- A greedy run reads a text of members of its set, behind which no member follows. -/
theorem picks_run {s : CharSet} {m n : Match} (picks : (rep (set s) 1 none true).Picks m n) :
    ∃ w, w ≠ [] ∧ (∀ c ∈ w, s.mem c = true) ∧ m.stop.Reads w n.stop ∧
      ∀ c ∈ n.stop.rest.head?, s.mem c = false := by
  obtain ⟨w, least, members, reads⟩ := takes_run.mp picks.takes
  exact ⟨w, List.length_pos_iff.mp least, members, reads, picks_run_ends picks⟩

end Regex

end Ripple
