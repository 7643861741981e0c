import Ripple.Proofs.Regex.Searching

/-!
The parts of an expression and of a match. A sequence leads from point to point through its parts; a
group remembers the points that its part led from and to, as long as nothing behind it enters the
same group again.
-/

namespace Ripple

open Rounds

namespace Regex

theorem takes_seqs_cons {r : Regex} {rs : List Regex} {p q : Point} :
    (seqs (r :: rs)).Takes p q ↔ ∃ o, r.Takes p o ∧ (seqs rs).Takes o q := by
  cases rs with
  | nil => simp [seqs, Takes, @eq_comm _ q]
  | cons s rs => rfl

theorem takes_seqs_append {rs ss : List Regex} {p q : Point} :
    (seqs (rs ++ ss)).Takes p q ↔ ∃ o, (seqs rs).Takes p o ∧ (seqs ss).Takes o q := by
  induction rs generalizing p with
  | nil => simp [seqs, Takes]
  | cons r rs ih =>
    simp only [List.cons_append, takes_seqs_cons, ih]
    constructor
    · rintro ⟨a, first, b, second, third⟩
      exact ⟨b, ⟨a, first, second⟩, third⟩
    · rintro ⟨b, ⟨a, first, second⟩, third⟩
      exact ⟨a, first, b, second, third⟩

/-- The characters of a text, one after another, lead along the text. -/
theorem takes_chars {w : List Char} {p q : Point} :
    (seqs (w.map char)).Takes p q ↔ p.Reads w q := by
  induction w generalizing p with
  | nil => rfl
  | cons c w ih =>
    rw [List.map_cons, takes_seqs_cons, Point.reads_cons]
    simp only [ih]
    constructor
    · rintro ⟨o, ⟨cs, rest, rfl⟩, reads⟩
      exact ⟨cs, rest, reads⟩
    · rintro ⟨cs, rest, reads⟩
      exact ⟨_, ⟨cs, rest, rfl⟩, reads⟩

theorem takes_optional {r : Regex} {greedy : Bool} {p q : Point} :
    (rep r 0 (some 1) greedy).Takes p q ↔ q = p ∨ r.Takes p q := by
  constructor
  · rintro ⟨n, _, most, iterated⟩
    have few : n ≤ 1 := by simpa using most 1 rfl
    match n with
    | 0 => exact .inl iterated
    | 1 =>
      obtain ⟨o, takes, rfl⟩ := iterated
      exact .inr takes
  · rintro (rfl | takes)
    · exact ⟨0, Nat.le_refl _, by simp, rfl⟩
    · exact ⟨1, Nat.zero_le _, by simp, q, takes, rfl⟩

theorem takes_loop {r : Regex} {greedy : Bool} {p q : Point} :
    (rep r 0 none greedy).Takes p q ↔ ∃ n, Iterated r.Takes n p q := by
  simp [Takes]

/-- Repeated members of a set read a text of members. -/
theorem takes_run {s : CharSet} {min : Nat} {greedy : Bool} {p q : Point} :
    (rep (set s) min none greedy).Takes p q ↔
      ∃ w, min ≤ w.length ∧ (∀ c ∈ w, s.mem c = true) ∧ p.Reads w q := by
  -- Each round reads one member.
  have each : ∀ n p, Iterated (set s).Takes n p q ↔
      ∃ w, w.length = n ∧ (∀ c ∈ w, s.mem c = true) ∧ p.Reads w q := by
    intro n
    induction n with
    | zero =>
      intro p
      simp [Iterated, List.length_eq_zero_iff]
    | succ n ih =>
      intro p
      simp only [Iterated, ih]
      constructor
      · rintro ⟨o, ⟨c, member, first⟩, w, rfl, members, second⟩
        exact ⟨c :: w, rfl, by simpa using ⟨member, members⟩, first.trans second⟩
      · rintro ⟨w, length, members, reads⟩
        cases w with
        | nil => simp at length
        | cons c w =>
          simp only [List.mem_cons, forall_eq_or_imp, List.length_cons, Nat.add_right_cancel_iff]
            at members length
          obtain ⟨cs, rest, reads⟩ := Point.reads_cons.mp reads
          exact ⟨_, ⟨c, members.1, cs, rest, rfl⟩, w, length, members.2, reads⟩
  constructor
  · rintro ⟨n, least, _, iterated⟩
    obtain ⟨w, rfl, members, reads⟩ := (each n p).mp iterated
    exact ⟨w, least, members, reads⟩
  · rintro ⟨w, least, members, reads⟩
    exact ⟨w.length, least, by simp, (each _ p).mpr ⟨w, rfl, members, reads⟩⟩

/-- Every character that an expression reads is of a kind. -/
def ReadsOnly (kind : Char → Prop) : Regex → Prop
  | empty | assert _ => True
  | char c => kind c
  | set s => ∀ c, s.mem c = true → kind c
  | seq r s | alt r s => r.ReadsOnly kind ∧ s.ReadsOnly kind
  | group _ r | rep r _ _ _ => r.ReadsOnly kind

theorem Takes.readsOnly {kind : Char → Prop} {r : Regex} (only : r.ReadsOnly kind) {p q : Point}
    (takes : r.Takes p q) : ∃ w, p.Reads w q ∧ ∀ c ∈ w, kind c := by
  induction r generalizing p q with
  | empty =>
    cases takes
    exact ⟨[], rfl, by simp⟩
  | assert a =>
    obtain ⟨_, rfl⟩ := takes
    exact ⟨[], rfl, by simp⟩
  | char c => exact ⟨[c], takes, List.forall_mem_singleton.mpr only⟩
  | set s =>
    obtain ⟨c, member, reads⟩ := takes
    exact ⟨[c], reads, List.forall_mem_singleton.mpr (only c member)⟩
  | seq r s ihr ihs =>
    obtain ⟨o, first, second⟩ := takes
    obtain ⟨u, reads, kinds⟩ := ihr only.1 first
    obtain ⟨v, reads', kinds'⟩ := ihs only.2 second
    exact ⟨u ++ v, reads.trans reads', List.forall_mem_append.mpr ⟨kinds, kinds'⟩⟩
  | alt r s ihr ihs =>
    rcases takes with takes | takes
    · exact ihr only.1 takes
    · exact ihs only.2 takes
  | group i r ih => exact ih only takes
  | rep r min max greedy ih =>
    obtain ⟨n, _, _, iterated⟩ := takes
    -- A round adds what it reads to what the rounds before it have read.
    have kept : ∀ o q, (∃ w, p.Reads w o ∧ ∀ c ∈ w, kind c) → r.Takes o q →
        ∃ w, p.Reads w q ∧ ∀ c ∈ w, kind c := by
      rintro o q ⟨u, reads, kinds⟩ round
      obtain ⟨v, reads', kinds'⟩ := ih only round
      exact ⟨u ++ v, reads.trans reads', List.forall_mem_append.mpr ⟨kinds, kinds'⟩⟩
    exact iterated.keeps kept ⟨[], rfl, by simp⟩

theorem outcomes_seqs_cons (r : Regex) (rs : List Regex) (m : Match) :
    (seqs (r :: rs)).outcomes m = (r.outcomes m).flatMap (seqs rs).outcomes := by
  cases rs with
  | nil => exact (List.flatMap_singleton' _).symm
  | cons s rs => rfl

theorem outcomes_seqs_append (rs ss : List Regex) (m : Match) :
    (seqs (rs ++ ss)).outcomes m = ((seqs rs).outcomes m).flatMap (seqs ss).outcomes := by
  induction rs generalizing m with
  | nil => simp [seqs, outcomes]
  | cons r rs ih =>
    rw [List.cons_append, outcomes_seqs_cons, outcomes_seqs_cons, List.flatMap_assoc,
      funext ih]

/-- The parts of an expression whose extent a group remembers. -/
def bodies (i : Nat) : Regex → List Regex
  | empty | char _ | set _ | assert _ => []
  | seq r s | alt r s => r.bodies i ++ s.bodies i
  | group j r => if j = i then [r] else r.bodies i
  | rep r _ _ _ => r.bodies i

theorem bodies_of_absent {i : Nat} {r : Regex} (absent : r.hasGroup i = false) :
    r.bodies i = [] := by
  induction r with
  | empty | char | set | assert => rfl
  | seq r s ihr ihs | alt r s ihr ihs =>
    simp only [hasGroup, Bool.or_eq_false_iff] at absent
    rw [bodies, ihr absent.1, ihs absent.2, List.append_nil]
  | group j r ih =>
    simp only [hasGroup, Bool.or_eq_false_iff, decide_eq_false_iff_not] at absent
    rw [bodies, if_neg absent.1, ih absent.2]
  | rep r min max greedy ih => exact ih absent

/-- What a match says of one group only. -/
structure OfGroup (i : Nat) (P : Match → Prop) : Prop where
  moved : ∀ m q, P m → P { m with stop := q }
  entered : ∀ j ≠ i, ∀ m, P m → P (m.enter j)
  left : ∀ j ≠ i, ∀ m, P m → P (m.leave j)

/-- What a match says of one group holds on every way through an expression, if the parts of this
group keep it. -/
theorem outcomes_keep {i : Nat} {P : Match → Prop} (only : OfGroup i P) {r : Regex}
    (own : ∀ part ∈ r.bodies i, ∀ m, P m → ∀ n ∈ part.outcomes (m.enter i), P (n.leave i))
    {m n : Match} (before : P m) (member : n ∈ r.outcomes m) : P n := by
  induction r generalizing m n with
  | empty =>
    rw [outcomes, List.mem_singleton] at member
    rwa [member]
  | char | set =>
    rw [outcomes, Option.mem_toList, Match.step?_eq] at member
    obtain ⟨q, _, rfl⟩ := Option.map_eq_some_iff.mp member
    exact only.moved m q before
  | assert a =>
    rw [outcomes] at member
    split at member
    · rw [List.mem_singleton] at member
      rwa [member]
    · simp at member
  | seq r s ihr ihs =>
    obtain ⟨first, second⟩ := List.forall_mem_append.mp own
    obtain ⟨o, leads, goesOn⟩ := List.mem_flatMap.mp member
    exact ihs second (ihr first before leads) goesOn
  | alt r s ihr ihs =>
    obtain ⟨first, second⟩ := List.forall_mem_append.mp own
    rcases List.mem_append.mp member with member | member
    · exact ihr first before member
    · exact ihs second before member
  | group j r ih =>
    obtain ⟨o, inner, rfl⟩ := List.mem_map.mp member
    rw [bodies] at own
    -- Only where the group itself is entered and left is something said of it.
    split at own
    next same =>
      subst same
      exact own r (List.mem_singleton_self r) m before o inner
    next other => exact only.left j other o (ih own (only.entered j other m before) inner)
  | rep r min max greedy ih =>
    obtain ⟨o, first, second⟩ := List.mem_flatMap.mp member
    obtain ⟨k, _, more⟩ := mem_ends_iff.mp second
    -- The rounds that have to be and those that may be are one row of rounds.
    exact ((mem_exactly_iff.mp first).add more).keeps (fun _ _ => ih own) before

/-- What a match remembers of a group. -/
def Remembers (i : Nat) (entered left : Option Point) (m : Match) : Prop :=
  m.entered.lookup i = entered ∧ m.left.lookup i = left

theorem remembers_ofGroup (i : Nat) (entered left : Option Point) :
    OfGroup i (Remembers i entered left) where
  moved _ _ before := before
  entered j other m before := by
    simpa [Remembers, Match.enter, List.lookup_cons, beq_false_of_ne other.symm] using before
  left j other m before := by
    simpa [Remembers, Match.leave, List.lookup_cons, beq_false_of_ne other.symm] using before

/-- An expression without a group leaves it as it is. -/
theorem outcomes_remembers {i : Nat} {r : Regex} (absent : r.hasGroup i = false)
    {entered left : Option Point} {m n : Match} (before : Remembers i entered left m)
    (member : n ∈ r.outcomes m) : Remembers i entered left n := by
  refine outcomes_keep (remembers_ofGroup i entered left) ?_ before member
  simp [bodies_of_absent absent]

/-- A group remembers where its part led from and to. -/
theorem remembers_group {i : Nat} {body : Regex} (inside : body.hasGroup i = false) {a b : Match}
    (member : b ∈ body.outcomes (a.enter i)) :
    Remembers i (some a.stop) (some b.stop) (b.leave i) := by
  have before : Remembers i (some a.stop) ((a.enter i).left.lookup i) (a.enter i) :=
    ⟨by simp [Match.enter], rfl⟩
  exact ⟨(outcomes_remembers inside before member).1, by simp [Match.leave]⟩

theorem Remembers.group? {i : Nat} {s e : Point} {m : Match}
    (remembers : Remembers i (some s) (some e) m) : m.group? i = some (s, e) := by
  simp [Match.group?, remembers.1, remembers.2]

/-- The group of a sequence spans what its part leads over. -/
theorem outcomes_group {i : Nat} {front back : List Regex} {body : Regex}
    (inside : body.hasGroup i = false) (behind : (seqs back).hasGroup i = false) {m n : Match}
    (member : n ∈ (seqs (front ++ group i body :: back)).outcomes m) :
    ∃ a ∈ (seqs front).outcomes m, ∃ b ∈ body.outcomes (a.enter i),
      n ∈ (seqs back).outcomes (b.leave i) ∧ n.group? i = some (a.stop, b.stop) := by
  rw [outcomes_seqs_append] at member
  obtain ⟨a, first, rest⟩ := List.mem_flatMap.mp member
  rw [outcomes_seqs_cons] at rest
  obtain ⟨c, grouped, last⟩ := List.mem_flatMap.mp rest
  obtain ⟨b, second, rfl⟩ := List.mem_map.mp grouped
  exact ⟨a, first, b, second, last,
    (outcomes_remembers behind (remembers_group inside second) last).group?⟩

/-- What a match remembers of a group is the extent of one of the given parts. -/
def Extent (i : Nat) (parts : List Regex) (m : Match) : Prop :=
  ∀ s e, m.group? i = some (s, e) → ∃ part ∈ parts, part.Takes s e

theorem extent_ofGroup (i : Nat) (parts : List Regex) : OfGroup i (Extent i parts) where
  moved _ _ before := before
  entered j other m before := by
    simpa [Extent, Match.group?, Match.enter, List.lookup_cons, beq_false_of_ne other.symm]
      using before
  left j other m before := by
    simpa [Extent, Match.group?, Match.leave, List.lookup_cons, beq_false_of_ne other.symm]
      using before

/-- The extent of a group of a match is that of one of its parts. -/
theorem preferred?_extent {i : Nat} {r : Regex}
    (flat : ∀ part ∈ r.bodies i, part.hasGroup i = false) {p s e : Point} {m : Match}
    (found : r.preferred? p = some m) (group : m.group? i = some (s, e)) :
    ∃ part ∈ r.bodies i, part.Takes s e := by
  refine outcomes_keep (extent_ofGroup i (r.bodies i)) ?_ (m := .ofPoint p) ?_
    (List.mem_of_head? found) s e group
  · intro part listed a _ b inner s e found
    rw [(remembers_group (flat part listed) inner).group?] at found
    cases found
    have takes : part.Takes (a.enter i).stop b.stop := outcomes_takes inner
    exact ⟨part, listed, takes⟩
  · rintro s e ⟨⟩

end Regex

end Ripple
