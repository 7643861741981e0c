import Mathlib.Tactic.SplitIfs
import Ripple.Analysis.Risk
import Ripple.Proofs.Text.Lowercase
import Ripple.Proofs.Text.Pieces

/-!
The points of a risk. Each part grows with what it is about, so that the sum does: with the numbers of
files, symbols and uses, and with the description of the change, since a longer text keeps the
breaking words of its parts. The reason that is given for the description names the breaking word of
the highest priority.
-/

namespace Ripple

/-- The place of a level in their order. -/
def RiskLevel.rank : RiskLevel → Nat
  | low => 0
  | medium => 1
  | high => 2
  | critical => 3

instance : LE RiskLevel := ⟨fun a b => a.rank ≤ b.rank⟩

theorem RiskLevel.ofScore_mono {m n : Nat} (le : m ≤ n) : ofScore m ≤ ofScore n := by
  change (ofScore m).rank ≤ (ofScore n).rank
  have rank : ∀ k, (ofScore k).rank =
      if k = 0 then 0 else if k ≤ 2 then 1 else if k ≤ 4 then 2 else 3 := by
    intro k
    rw [ofScore]
    split
    · rfl
    · split
      · rfl
      · split <;> rfl
  rw [rank, rank]
  split_ifs <;> omega

namespace Risk

section Counts

theorem score_ofDependents (n : Nat) : (ofDependents n).score =
    if n = 0 then 0 else if n ≤ 2 then 1 else if n ≤ 5 then 2 else 3 := by
  rw [ofDependents]
  split_ifs <;> first | rfl | omega

theorem score_ofExports (n : Nat) : (ofExports n).score = if 10 < n then 1 else 0 := by
  rw [ofExports]
  split_ifs <;> rfl

theorem score_ofUsages (n : Nat) :
    (ofUsages n).score = if 20 < n then 2 else if 5 < n then 1 else 0 := by
  rw [ofUsages]
  split_ifs <;> rfl

theorem ofDependents_mono {m n : Nat} (le : m ≤ n) :
    (ofDependents m).score ≤ (ofDependents n).score := by
  rw [score_ofDependents, score_ofDependents]
  split_ifs <;> omega

theorem ofExports_mono {m n : Nat} (le : m ≤ n) : (ofExports m).score ≤ (ofExports n).score := by
  rw [score_ofExports, score_ofExports]
  split_ifs <;> omega

theorem ofUsages_mono {m n : Nat} (le : m ≤ n) : (ofUsages m).score ≤ (ofUsages n).score := by
  rw [score_ofUsages, score_ofUsages]
  split_ifs <;> omega

end Counts

section Descriptions

/-- A word is part of a description in lower case. -/
def Announces (change word : String) : Prop := word.toList <:+: Unicode.lowercase change.toList

/-- The breaking word of the highest priority that is part of a description. -/
structure FirstAnnounced (change word : String) : Prop where
  announced : Announces change word
  first : ∃ before behind, breakingWords = before ++ word :: behind ∧
    ∀ other ∈ before, ¬ Announces change other

theorem breakingWords_plain : ∀ word ∈ breakingWords,
    word.toList ≠ [] ∧ Unicode.Lowercase.IsPlain word.toList := by
  have each : ∀ word ∈ breakingWords, word.toList ≠ [] ∧
      (word.toList.all fun c => decide (c.toNat < 128 ∧ c ≠ 'k')) = true ∧
        word.toList.getLast? ≠ some 'i' := by
    decide
  intro word listed
  obtain ⟨some, letters, last⟩ := each word listed
  exact ⟨some, fun c member => of_decide_eq_true (List.all_eq_true.mp letters c member), last⟩

/-- A longer description announces what its parts announce. -/
theorem Announces.mono {part whole word : String} (listed : word ∈ breakingWords)
    (inside : part.toList <:+: whole.toList) (announces : Announces part word) :
    Announces whole word := by
  obtain ⟨some, plain⟩ := breakingWords_plain word listed
  exact Unicode.infix_lowercase_mono plain some inside announces

theorem breakingWord?_eq_some_iff {change word : String} :
    breakingWord? change = some word ↔ FirstAnnounced change word := by
  have test : ∀ word, Text.contains word.toList (Unicode.lowercase change.toList) = true ↔
      Announces change word := fun word => Text.contains_iff
  rw [breakingWord?, List.find?_eq_some_iff_append, test]
  constructor
  · rintro ⟨announced, before, behind, shape, others⟩
    refine ⟨announced, before, behind, shape, fun other listed announces => ?_⟩
    have absent := others other listed
    rw [(test other).mpr announces] at absent
    cases absent
  · rintro ⟨announced, before, behind, shape, others⟩
    refine ⟨announced, before, behind, shape, fun other listed => ?_⟩
    rw [Bool.not_eq_true', Bool.eq_false_iff, ne_eq, test]
    exact others other listed

theorem breakingWord?_eq_none_iff {change : String} :
    breakingWord? change = Option.none ↔ ∀ word ∈ breakingWords, ¬ Announces change word := by
  rw [breakingWord?, List.find?_eq_none]
  simp only [Text.contains_iff, Announces]

/-- A description at least as long: none to begin with, or a text of which the other is a part. -/
def Extends (change longer : Option String) : Prop :=
  change = Option.none ∨
    ∃ part whole, change = some part ∧ longer = some whole ∧ part.toList <:+: whole.toList

theorem Extends.refl (change : Option String) : Extends change change := by
  cases change with
  | none => exact .inl rfl
  | some text => exact .inr ⟨text, text, rfl, rfl, List.infix_refl _⟩

theorem ofChange_le_one (change : Option String) : (ofChange change).score ≤ 1 := by
  rw [ofChange]
  split
  · exact Nat.le_refl 1
  · exact Nat.zero_le 1

theorem ofChange_mono {change longer : Option String} (grows : Extends change longer) :
    (ofChange change).score ≤ (ofChange longer).score := by
  rcases grows with rfl | ⟨part, whole, rfl, rfl, inside⟩
  · exact Nat.zero_le _
  · cases found : breakingWord? whole with
    | some word =>
      have points : (ofChange (some whole)).score = 1 := by simp [ofChange, found]
      rw [points]
      exact ofChange_le_one (some part)
    | none =>
      -- A text without breaking words has none in its parts either.
      have absent : breakingWord? part = Option.none :=
        breakingWord?_eq_none_iff.mpr fun word listed announces =>
          breakingWord?_eq_none_iff.mp found word listed (announces.mono listed inside)
      simp [ofChange, absent, Risk.none]

end Descriptions

theorem score_assess (d x u : Nat) (change : Option String) : (assess d x u change).score =
    (ofDependents d).score + (ofExports x).score + (ofUsages u).score + (ofChange change).score := rfl

theorem assess_grows {d d' x x' u u' : Nat} {change longer : Option String} (dependents : d ≤ d')
    (exports : x ≤ x') (usages : u ≤ u') (grows : Extends change longer) :
    (assess d x u change).score ≤ (assess d' x' u' longer).score := by
  have := ofDependents_mono dependents
  have := ofExports_mono exports
  have := ofUsages_mono usages
  have := ofChange_mono grows
  rw [score_assess, score_assess]
  omega

theorem assess_mono {d d' u u' : Nat} (dependents : d ≤ d') (usages : u ≤ u') (x : Nat)
    (change : Option String) : (assess d x u change).score ≤ (assess d' x u' change).score :=
  assess_grows dependents (Nat.le_refl x) usages (.refl change)

theorem assess_le_seven (d x u : Nat) (change : Option String) : (assess d x u change).score ≤ 7 := by
  have := ofChange_le_one change
  rw [score_assess, score_ofDependents, score_ofExports, score_ofUsages]
  split_ifs <;> omega

section Reasons

/-- The reason that is given for a description with a breaking word. -/
def breakReason (word : String) : String :=
  "Proposed change involves '" ++ word ++ "' - may break callers"

/-- Whether a reason is about the description of the change. -/
def tellsBreak (reason : String) : Bool :=
  "Proposed change involves '".toList.isPrefixOf reason.toList

theorem tellsBreak_breakReason (word : String) : tellsBreak (breakReason word) = true := by
  have begins : ∀ front middle back : String,
      front.toList.isPrefixOf (front ++ middle ++ back).toList = true := by
    intro front middle back
    rw [List.isPrefixOf_iff_prefix, String.toList_append, String.toList_append, List.append_assoc]
    exact List.prefix_append _ _
  exact begins _ word _

theorem tellsBreak_eq_false {reason : String} (other : reason.toList.head? ≠ some 'P') :
    tellsBreak reason = false := by
  rw [tellsBreak, Bool.eq_false_iff, ne_eq, List.isPrefixOf_iff_prefix]
  rintro ⟨rest, shape⟩
  apply other
  rw [← shape]
  rfl

theorem head?_number (n : Nat) (text : String) : (toString n ++ text).toList.head? ≠ some 'P' := by
  obtain ⟨c, digits, shape⟩ := List.exists_cons_of_ne_nil (Nat.toDigits_ne_nil (b := 10) (n := n))
  have digit : c.isDigit = true :=
    Nat.isDigit_of_mem_toDigits (b := 10) (n := n) (by decide) (by decide)
      (shape ▸ List.mem_cons_self)
  have number : (toString n).toList = c :: digits := String.toList_ofList.trans shape
  rw [String.toList_append, number, List.cons_append, List.head?_cons]
  rintro ⟨⟩
  cases digit

/-- The reasons for the counts are not about the description. -/
theorem not_tellsBreak_of_counts (d x u : Nat) : ∀ reason ∈ (ofDependents d).reasons ++
    (ofExports x).reasons ++ (ofUsages u).reasons, tellsBreak reason = false := by
  intro reason member
  -- The first letter is enough: numbers and other words begin with another one.
  apply tellsBreak_eq_false
  simp only [List.mem_append] at member
  rcases member with (member | member) | member
  · rw [ofDependents] at member
    split_ifs at member <;> rw [List.mem_singleton.mp member]
    · decide
    · decide
    · decide
    · exact head?_number d _
    · exact head?_number d _
  · rw [ofExports] at member
    split_ifs at member
    · rw [List.mem_singleton.mp member, String.toList_append, String.toList_append]
      simp
    · cases member
  · rw [ofUsages] at member
    split_ifs at member
    · rw [List.mem_singleton.mp member, String.toList_append, String.toList_append]
      simp
    · rw [List.mem_singleton.mp member, String.toList_append, String.toList_append]
      simp
    · cases member

/-- Of the reasons for a risk, one is about the description if it has a breaking word, and else
none. -/
theorem filter_reasons (d x u : Nat) (change : Option String) :
    (assess d x u change).reasons.filter tellsBreak =
      (change.bind breakingWord?).toList.map breakReason := by
  have counts : ((ofDependents d).reasons ++ (ofExports x).reasons ++
      (ofUsages u).reasons).filter tellsBreak = [] := by
    rw [List.filter_eq_nil_iff]
    intro reason member
    rw [not_tellsBreak_of_counts d x u reason member]
    decide
  have shape : (assess d x u change).reasons = ((ofDependents d).reasons ++ (ofExports x).reasons ++
      (ofUsages u).reasons) ++ (ofChange change).reasons := rfl
  rw [shape, List.filter_append, counts, List.nil_append, ofChange]
  cases change.bind breakingWord? with
  | none => rfl
  | some word => exact List.filter_cons_of_pos (tellsBreak_breakReason word)

end Reasons

/-- Scoring is monotone in all that it looks at: in the numbers, and in the description, which may be
added or made longer. No risk has more than seven points, its level is that of its points, and the
only reason that is about the description names the first breaking word in the order of priority that
is part of the description in lower case. -/
theorem scoring_monotone :
    (∀ (d d' x x' u u' : Nat) (change longer : Option String), d ≤ d' → x ≤ x' → u ≤ u' →
      Extends change longer →
      (assess d x u change).score ≤ (assess d' x' u' longer).score ∧
        (assess d x u change).level ≤ (assess d' x' u' longer).level) ∧
    (∀ (d x u : Nat) (change : Option String), (assess d x u change).score ≤ 7 ∧
      (assess d x u change).level = .ofScore (assess d x u change).score) ∧
    ∀ (d x u : Nat) (text : String),
      ((∃ word ∈ breakingWords, Announces text word) → ∃ word, FirstAnnounced text word ∧
        (assess d x u (some text)).reasons.filter tellsBreak = [breakReason word]) ∧
      ((∀ word ∈ breakingWords, ¬ Announces text word) →
        (assess d x u (some text)).reasons.filter tellsBreak = []) := by
  refine ⟨?_, ?_, ?_⟩
  · intro d d' x x' u u' change longer dependents exports usages grows
    have points := assess_grows dependents exports usages grows
    exact ⟨points, RiskLevel.ofScore_mono points⟩
  · exact fun d x u change => ⟨assess_le_seven d x u change, rfl⟩
  · intro d x u text
    rw [filter_reasons, Option.bind_some]
    cases found : breakingWord? text with
    | none =>
      have none := breakingWord?_eq_none_iff.mp found
      refine ⟨?_, fun _ => rfl⟩
      rintro ⟨word, listed, announces⟩
      exact absurd announces (none word listed)
    | some word =>
      have first := breakingWord?_eq_some_iff.mp found
      refine ⟨fun _ => ⟨word, first, rfl⟩, fun none => ?_⟩
      obtain ⟨before, behind, shape, _⟩ := first.first
      have listed : word ∈ breakingWords := by
        rw [shape]
        exact List.mem_append_right _ List.mem_cons_self
      exact absurd first.announced (none word listed)

theorem scoring_monotone_renaming :
    (assess 1 0 3 (some "RENAME")).score ≤
      (assess 4 11 21 (some "Remove it, then RENAME the rest")).score ∧
    ∃ word, FirstAnnounced "Remove it, then RENAME the rest" word ∧
      (assess 4 11 21 (some "Remove it, then RENAME the rest")).reasons.filter tellsBreak =
        [breakReason word] := by
  have grows : Extends (some "RENAME") (some "Remove it, then RENAME the rest") :=
    .inr ⟨_, _, rfl, rfl, "Remove it, then ".toList, " the rest".toList, by decide⟩
  have announces : Announces "Remove it, then RENAME the rest" "rename" :=
    ⟨"remove it, then ".toList, " the rest".toList, by decide⟩
  obtain ⟨monotone, _, names⟩ := scoring_monotone
  exact ⟨(monotone 1 4 0 11 3 21 _ _ (by decide) (by decide) (by decide) grows).1,
    (names 4 11 21 _).1 ⟨"rename", by decide, announces⟩⟩

/-- The priority decides, not the place in the text. -/
example : breakingWord? "Remove it, then RENAME the rest" = some "rename" := by decide

end Risk

end Ripple
