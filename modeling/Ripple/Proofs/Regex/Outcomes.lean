import Ripple.Proofs.Regex.Exploring
import Ripple.Proofs.Regex.Points
import Ripple.Regex.Search

/-!
What matching finds. The ways to carry a match on through an expression are listed by trying all
choices in order of preference; a relation between points says where an expression leads. Matching
computes the list of ways, thinned, so that both its first member and the points it comes to can be
told without the exploration.
-/

namespace Ripple

open Rounds

namespace Match

theorem step?_eq (m : Match) (test : Char → Bool) :
    m.step? test = (m.stop.step? test).map fun q => { m with stop := q } := by
  rw [step?, Point.step?]
  cases m.stop.rest with
  | nil => rfl
  | cons c cs =>
    by_cases passes : test c = true
    · simp only [passes, if_true, Option.map_some]
      rfl
    · simp [passes]

end Match

namespace Regex

/-- All ways to carry a match on through an expression, the preferred one first. Ways that come to
the same point are all listed. -/
def outcomes : Regex → Match → List Match
  | empty, m => [m]
  | char c, m => (m.step? (· = c)).toList
  | set s, m => (m.step? s.mem).toList
  | assert a, m => if a.holds m.stop then [m] else []
  | seq r s, m => (r.outcomes m).flatMap s.outcomes
  | alt r s, m => r.outcomes m ++ s.outcomes m
  | group i r, m => (r.outcomes (m.enter i)).map (·.leave i)
  | rep r min max greedy, m =>
    (exactly r.outcomes min m).flatMap fun n =>
      ends r.outcomes greedy ((max.map (· - min)).getD n.stop.rest.length) n

/-- An expression leads from one point to another. -/
def Takes : Regex → Point → Point → Prop
  | empty, p, q => q = p
  | char c, p, q => p.Reads [c] q
  | set s, p, q => ∃ c, s.mem c = true ∧ p.Reads [c] q
  | assert a, p, q => a.holds p = true ∧ q = p
  | seq r s, p, q => ∃ o, r.Takes p o ∧ s.Takes o q
  | alt r s, p, q => r.Takes p q ∨ s.Takes p q
  | group _ r, p, q => r.Takes p q
  | rep r min max _, p, q =>
    ∃ n, min ≤ n ∧ (∀ k ∈ max, n - min ≤ k - min) ∧ Iterated r.Takes n p q

/-- Every unbounded repetition within the expression consumes something in each round. -/
def steady : Regex → Bool
  | empty | char _ | set _ | assert _ => true
  | seq r s | alt r s => r.steady && s.steady
  | group _ r => r.steady
  | rep r _ max _ => r.steady && (max.isSome || !r.nullable)

/-- What is read on the way from one point to another; it is not empty if the expression consumes
something. -/
theorem Takes.reads {r : Regex} {p q : Point} (takes : r.Takes p q) :
    ∃ w, p.Reads w q ∧ (r.nullable = false → w ≠ []) := by
  induction r generalizing p q with
  | empty =>
    cases takes
    exact ⟨[], rfl, by simp [nullable]⟩
  | char c => exact ⟨[c], takes, by simp⟩
  | set s =>
    obtain ⟨c, _, reads⟩ := takes
    exact ⟨[c], reads, by simp⟩
  | assert a =>
    obtain ⟨_, rfl⟩ := takes
    exact ⟨[], rfl, by simp [nullable]⟩
  | seq r s ihr ihs =>
    obtain ⟨o, first, second⟩ := takes
    obtain ⟨u, reads, some⟩ := ihr first
    obtain ⟨v, reads', some'⟩ := ihs second
    refine ⟨u ++ v, reads.trans reads', fun consumes => ?_⟩
    simp only [nullable, Bool.and_eq_false_iff] at consumes
    rcases consumes with consumes | consumes
    · simp [some consumes]
    · simp [some' consumes]
  | alt r s ihr ihs =>
    simp only [nullable, Bool.or_eq_false_iff]
    rcases takes with takes | takes
    · obtain ⟨w, reads, some⟩ := ihr takes
      exact ⟨w, reads, fun consumes => some consumes.1⟩
    · obtain ⟨w, reads, some⟩ := ihs takes
      exact ⟨w, reads, fun consumes => some consumes.2⟩
  | group i r ih => exact ih takes
  | rep r min max greedy ih =>
    obtain ⟨n, least, most, iterated⟩ := takes
    simp only [nullable, Bool.or_eq_false_iff, decide_eq_false_iff_not]
    -- A repetition that cannot be empty makes a round at least, and each round reads something.
    clear most
    induction n generalizing p min with
    | zero =>
      cases iterated
      exact ⟨[], rfl, fun consumes => by omega⟩
    | succ n ihn =>
      obtain ⟨o, first, rest⟩ := iterated
      obtain ⟨u, reads, some⟩ := ih first
      obtain ⟨v, reads', _⟩ := ihn (min - 1) (by omega) rest
      exact ⟨u ++ v, reads.trans reads', fun consumes => by simp [some consumes.2]⟩

theorem Takes.rest_lt {r : Regex} (consumes : r.nullable = false) {p q : Point}
    (takes : r.Takes p q) : q.rest.length < p.rest.length := by
  obtain ⟨w, reads, some⟩ := takes.reads
  have := List.length_pos_iff.mpr (some consumes)
  rw [reads.rest_eq, List.length_append]
  omega

theorem takes_single {m n : Match} {test : Char → Bool} (member : n ∈ (m.step? test).toList) :
    ∃ c, test c = true ∧ m.stop.Reads [c] n.stop := by
  rw [Option.mem_toList, Match.step?_eq] at member
  obtain ⟨q, stepped, rfl⟩ := Option.map_eq_some_iff.mp member
  exact Point.step?_eq_some_iff.mp stepped

theorem outcomes_takes {r : Regex} {m n : Match} (member : n ∈ r.outcomes m) :
    r.Takes m.stop n.stop := by
  induction r generalizing m n with
  | empty =>
    simp only [outcomes, List.mem_singleton] at member
    rw [member, Takes]
  | char c =>
    obtain ⟨d, same, reads⟩ := takes_single member
    obtain rfl : d = c := by simpa using same
    exact reads
  | set s => exact takes_single member
  | assert a =>
    simp only [outcomes] at member
    split at member
    next holds =>
      rw [List.mem_singleton.mp member]
      exact ⟨holds, rfl⟩
    next => simp at member
  | seq r s ihr ihs =>
    obtain ⟨o, first, second⟩ := List.mem_flatMap.mp member
    exact ⟨o.stop, ihr first, ihs second⟩
  | alt r s ihr ihs =>
    rcases List.mem_append.mp member with member | member
    · exact .inl (ihr member)
    · exact .inr (ihs member)
  | group i r ih =>
    obtain ⟨o, inner, rfl⟩ := List.mem_map.mp member
    exact ih (m := m.enter i) (n := o) inner
  | rep r min max greedy ih =>
    obtain ⟨o, first, second⟩ := List.mem_flatMap.mp member
    obtain ⟨k, bound, more⟩ := mem_ends_iff.mp second
    refine ⟨min + k, Nat.le_add_right _ _, ?_, ((mem_exactly_iff.mp first).add more).map Match.stop
      fun _ _ member => ih member⟩
    -- No more rounds are made than the bound allows beyond those that have to be.
    rintro most rfl
    simpa using bound

theorem exists_single {m : Match} {q : Point} {test : Char → Bool} {c : Char}
    (passes : test c = true) (reads : m.stop.Reads [c] q) :
    ∃ n ∈ (m.step? test).toList, n.stop = q := by
  refine ⟨{ m with stop := q }, ?_, rfl⟩
  rw [Option.mem_toList, Match.step?_eq, Point.step?_eq_some_iff.mpr ⟨c, passes, reads⟩]
  rfl

/-- Wherever an expression leads, some way through it comes to. -/
theorem exists_outcome {r : Regex} (steady : r.steady = true) {m : Match} {q : Point}
    (takes : r.Takes m.stop q) : ∃ n ∈ r.outcomes m, n.stop = q := by
  induction r generalizing m q with
  | empty => exact ⟨m, by simp [outcomes], takes.symm⟩
  | char c => exact exists_single (by simp) takes
  | set s =>
    obtain ⟨c, passes, reads⟩ := takes
    exact exists_single passes reads
  | assert a =>
    obtain ⟨holds, rfl⟩ := takes
    exact ⟨m, by simp [outcomes, holds], rfl⟩
  | seq r s ihr ihs =>
    simp only [Regex.steady, Bool.and_eq_true] at steady
    obtain ⟨o, first, second⟩ := takes
    obtain ⟨n, member, rfl⟩ := ihr steady.1 first
    obtain ⟨n', member', rfl⟩ := ihs steady.2 second
    exact ⟨n', List.mem_flatMap.mpr ⟨n, member, member'⟩, rfl⟩
  | alt r s ihr ihs =>
    simp only [Regex.steady, Bool.and_eq_true] at steady
    rcases takes with takes | takes
    · obtain ⟨n, member, equal⟩ := ihr steady.1 takes
      exact ⟨n, List.mem_append_left _ member, equal⟩
    · obtain ⟨n, member, equal⟩ := ihs steady.2 takes
      exact ⟨n, List.mem_append_right _ member, equal⟩
  | group i r ih =>
    obtain ⟨n, member, equal⟩ := ih steady (m := m.enter i) takes
    exact ⟨n.leave i, List.mem_map_of_mem member, equal⟩
  | rep r min max greedy ih =>
    simp only [Regex.steady, Bool.and_eq_true, Bool.or_eq_true, Bool.not_eq_true'] at steady
    obtain ⟨k, least, most, iterated⟩ := takes
    obtain ⟨more, rfl⟩ := Nat.exists_eq_add_of_le least
    -- The rounds are split into those that have to be and those that may be.
    obtain ⟨n, ways, rfl⟩ := iterated.lift fun e y takes => ih steady.1 (m := e) takes
    obtain ⟨o, first, second⟩ := ways.split
    refine ⟨n, List.mem_flatMap.mpr ⟨o, mem_exactly_iff.mpr first,
      mem_ends_iff.mpr ⟨more, ?_, second⟩⟩, rfl⟩
    cases max with
    | some bound => simpa using most bound rfl
    | none =>
      -- Without a bound, each round reads something, so there are no more of them than characters.
      have consumes : r.nullable = false := by simpa using steady.2
      have := second.le_rank fun e f member => (outcomes_takes (n := f) member).rest_lt consumes
      simp only [Option.map_none, Option.getD_none]
      omega

/-- The match has come to a point of the text. -/
def Within (text : List Char) (m : Match) : Prop := m.stop.In text

theorem outcomes_within {text : List Char} {r : Regex} {m n : Match} (inside : Within text m)
    (member : n ∈ r.outcomes m) : Within text n := by
  obtain ⟨w, reads, _⟩ := (outcomes_takes member).reads
  exact Point.In.reads inside reads

theorem outcomes_local {r : Regex} (steady : r.steady = true) (text : List Char) :
    Local (Within text) Match.offset r.outcomes where
  stays := outcomes_within
  keys_eq := by
    intro m n inside inside' same x member
    have stop : m.stop = n.stop := inside.eq_of_offset inside' same
    have takes := outcomes_takes member
    rw [stop] at takes
    obtain ⟨y, member', equal⟩ := exists_outcome steady takes
    exact List.mem_map.mpr ⟨y, member', by rw [Match.offset, Match.offset, equal]⟩

/-- How far a match can still go. -/
def remaining (m : Match) : Nat := m.stop.rest.length

theorem outcomes_forward {r : Regex} (steady : r.steady = true) (consumes : r.nullable = false)
    (text : List Char) : Forward (Within text) Match.offset remaining r.outcomes where
  toLocal := outcomes_local steady text
  descends _ member := (outcomes_takes member).rest_lt consumes
  rank_eq inside inside' same := by
    rw [remaining, remaining, inside.eq_of_offset inside' same]

end Regex

end Ripple
