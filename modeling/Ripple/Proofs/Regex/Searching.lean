import Ripple.Proofs.Regex.Extending

/-!
What a search finds: the preferred outcome at the first point that has one. So an expression matches
in a text exactly if it leads from some point of the text to another, and each of the successive
matches is the preferred outcome at its start.
-/

namespace Ripple

open Rounds

namespace Point

/-- A point and all points behind it. The list holds the characters after the point. -/
def onward : List Char → Point → List Point
  | [], p => [p]
  | c :: cs, p => p :: onward cs (p.behind c cs)

theorem mem_onward_iff {p q : Point} : q ∈ onward p.rest p ↔ ∃ w, p.Reads w q := by
  generalize rest : p.rest = cs
  induction cs generalizing p with
  | nil =>
    simp only [onward, List.mem_singleton]
    constructor
    · rintro rfl
      exact ⟨[], rfl⟩
    · rintro ⟨_ | ⟨c, w⟩, reads⟩
      · exact reads
      · simp [reads_cons, rest] at reads
  | cons c cs ih =>
    simp only [onward, List.mem_cons, ih (p := p.behind c cs) rfl]
    constructor
    · rintro (rfl | ⟨w, reads⟩)
      · exact ⟨[], rfl⟩
      · exact ⟨c :: w, cs, rest, reads⟩
    · rintro ⟨_ | ⟨d, w⟩, reads⟩
      · exact .inl reads
      · obtain ⟨ds, rest', reads⟩ := reads
        obtain ⟨rfl, rfl⟩ := List.cons.inj (rest.symm.trans rest')
        exact .inr ⟨w, reads⟩

theorem onward_offsets_nodup (p : Point) : ((onward p.rest p).map offset).Nodup := by
  generalize rest : p.rest = cs
  induction cs generalizing p with
  | nil => simp [onward]
  | cons c cs ih =>
    rw [onward, List.map_cons, List.nodup_cons]
    refine ⟨fun member => ?_, ih (p.behind c cs) rfl⟩
    obtain ⟨q, listed, same⟩ := List.mem_map.mp member
    obtain ⟨w, reads⟩ := mem_onward_iff (p := p.behind c cs).mp listed
    have later := reads.offset_eq
    have positive := c.utf8Size_pos
    simp only [behind] at later
    omega

/-- A block holds the first points, and the point behind them begins the others. -/
theorem blockFrom_eq (size : Nat) (p : Point) (found : List Point) :
    ∃ next, blockFrom size p.rest p found = (found.reverse ++ (onward p.rest p).take size, next) ∧
      (onward p.rest p).drop size = (next.map fun q => onward q.rest q).getD [] ∧
      ∀ q ∈ next, q.rest.length + size ≤ p.rest.length ∧ ∃ w, p.Reads w q := by
  generalize rest : p.rest = cs
  induction size generalizing p cs found with
  | zero =>
    refine ⟨some p, by simp [blockFrom], by simp [rest], ?_⟩
    rintro q ⟨⟩
    exact ⟨by simp [rest], [], rfl⟩
  | succ size ih =>
    cases cs with
    | nil => exact ⟨none, by simp [blockFrom, onward], by simp [onward], by simp⟩
    | cons c cs =>
      obtain ⟨next, block, others, behind⟩ := ih (p.behind c cs) (p :: found) cs rfl
      refine ⟨next, by simp [blockFrom, block, onward], by simp [onward, others], ?_⟩
      intro q member
      obtain ⟨fewer, w, reads⟩ := behind q member
      exact ⟨by simp only [List.length_cons]; omega, c :: w, cs, rest, reads⟩

end Point

namespace Regex

/-- The preferred way through an expression from a point. -/
def preferred? (r : Regex) (p : Point) : Option Match := (r.outcomes (.ofPoint p)).head?

theorem head?_thin (ms : List Match) : (thin Match.offset ms).head? = ms.head? := by
  cases ms <;> simp [thin, fresh]

theorem head?_flatMap_outcomes (r : Regex) (ps : List Point) :
    ((ps.map .ofPoint).flatMap r.outcomes).head? = ps.findSome? r.preferred? := by
  induction ps with
  | nil => rfl
  | cons p ps ih =>
    rw [List.map_cons, List.flatMap_cons, List.head?_append, ih, List.findSome?_cons, preferred?]
    cases (r.outcomes (.ofPoint p)).head? <;> rfl

/-- A search finds the preferred way at the first point from which there is one. -/
theorem search?_eq {r : Regex} (steady : r.steady = true) {text : List Char} {p : Point}
    (inside : p.In text) : r.search? p = (Point.onward p.rest p).findSome? r.preferred? := by
  -- A block of points is extended at once, and the first match of the earliest point comes first.
  have head : ∀ ps : List Point, (∀ q ∈ ps, q.In text) → (ps.map Point.offset).Nodup →
      (r.extend (ps.map .ofPoint)).head? = ps.findSome? r.preferred? := by
    intro ps inside distinct
    rw [extend_eq steady text (ps.map .ofPoint), head?_thin, head?_flatMap_outcomes]
    · intro m member
      obtain ⟨q, listed, rfl⟩ := List.mem_map.mp member
      exact inside q listed
    · rw [List.map_map]
      exact distinct
  -- The blocks grow, so the induction is on the text that is left, for every size of a block.
  suffices general : ∀ (bound : List Char) (size : Nat) (p : Point), p.In text → 0 < size →
      p.rest.length ≤ bound.length →
      r.searchFrom bound size p = (Point.onward p.rest p).findSome? r.preferred? from
    general p.rest 1 p inside Nat.one_pos (Nat.le_refl _)
  intro bound
  induction bound with
  | nil =>
    intro size p inside _ enough
    have last : p.rest = [] := List.eq_nil_of_length_eq_zero (Nat.le_zero.mp enough)
    rw [last, Point.onward, ← head [p] (by simpa using inside) (by simp)]
    rfl
  | cons c bound ih =>
    intro size p inside positive enough
    obtain ⟨next, block, others, behind⟩ := Point.blockFrom_eq size p []
    have first : (r.extend (((Point.onward p.rest p).take size).map .ofPoint)).head? =
        ((Point.onward p.rest p).take size).findSome? r.preferred? := by
      apply head
      · intro q member
        obtain ⟨w, reads⟩ := Point.mem_onward_iff.mp (List.mem_of_mem_take member)
        exact inside.reads reads
      · exact (Point.onward_offsets_nodup p).sublist ((List.take_sublist _ _).map _)
    rw [← List.take_append_drop size (Point.onward p.rest p), List.findSome?_append, ← first,
      others, searchFrom, Point.block, block, List.reverse_nil, List.nil_append]
    simp only []
    cases found : r.extend (((Point.onward p.rest p).take size).map .ofPoint) with
    | cons m ms => rfl
    | nil =>
      cases next with
      | none => rfl
      | some q =>
        obtain ⟨fewer, w, reads⟩ := behind q rfl
        simp only [List.length_cons] at enough
        exact ih (2 * size) q (inside.reads reads) (by omega) (by omega)

/-- Where an expression leads to some point, there is a preferred way. -/
theorem exists_preferred {r : Regex} (steady : r.steady = true) {p q : Point} (takes : r.Takes p q) :
    ∃ m, r.preferred? p = some m := by
  obtain ⟨m, member, _⟩ := exists_outcome steady (m := .ofPoint p) takes
  rw [← Option.isSome_iff_exists, preferred?, List.isSome_head?]
  simp [List.ne_nil_of_mem member]

/-- An expression matches in a text exactly if it leads from some point of the text to another. -/
theorem matchesIn_iff {r : Regex} (steady : r.steady = true) {text : List Char} :
    r.matchesIn text = true ↔ ∃ p q, p.In text ∧ r.Takes p q := by
  rw [matchesIn, search?_eq steady (Point.start_in text), List.findSome?_isSome_iff]
  constructor
  · rintro ⟨p, listed, some⟩
    obtain ⟨m, found⟩ := Option.isSome_iff_exists.mp some
    exact ⟨p, m.stop, Point.mem_onward_iff.mp listed, outcomes_takes (List.mem_of_head? found)⟩
  · rintro ⟨p, q, inside, takes⟩
    exact ⟨p, Point.mem_onward_iff.mpr inside, Option.isSome_iff_exists.mpr (exists_preferred steady takes)⟩

theorem search?_preferred {r : Regex} (steady : r.steady = true) {text : List Char} {p : Point}
    (inside : p.In text) {m : Match} (found : r.search? p = some m) :
    ∃ q, q.In text ∧ r.preferred? q = some m := by
  rw [search?_eq steady inside] at found
  obtain ⟨q, listed, here⟩ := List.exists_of_findSome?_eq_some found
  obtain ⟨w, reads⟩ := Point.mem_onward_iff.mp listed
  exact ⟨q, inside.reads reads, here⟩

theorem preferred?_within {r : Regex} {text : List Char} {p : Point} (inside : p.In text) {m : Match}
    (found : r.preferred? p = some m) : m.stop.In text :=
  outcomes_within (m := .ofPoint p) inside (List.mem_of_head? found)

/-- The successive matches in a text have what every match has that is found from a point of the
text, if it also ends at such a point. -/
theorem matchesOf_of_search {r : Regex} {text : List Char} {P : Match → Prop}
    (each : ∀ {p m}, p.In text → r.search? p = some m → P m ∧ m.stop.In text) {m : Match}
    (member : m ∈ r.matchesOf text) : P m := by
  -- An empty match where the last one ended is passed over by a step.
  have next : ∀ {p last m}, p.In text → r.nextMatch? p last = some m → P m ∧ m.stop.In text := by
    intro p last m inside found
    rw [nextMatch?] at found
    split at found
    next => contradiction
    next n first =>
      split at found
      next =>
        split at found
        next q stepped =>
          obtain ⟨c, _, reads⟩ := Point.step?_eq_some_iff.mp stepped
          exact each (inside.reads reads) found
        next => contradiction
      next =>
        cases found
        exact each inside first
  -- The matches are gathered in reverse behind those found before.
  suffices general : ∀ (bound : Nat) (p : Point) (last : Option Nat) (found : List Match),
      p.In text → (∀ m ∈ found, P m) → ∀ m ∈ r.matchesFrom bound p last found, P m from
    general _ _ none [] (Point.start_in text) (by simp) m (List.mem_reverse.mp member)
  intro bound
  induction bound with
  | zero => exact fun _ _ _ _ all => all
  | succ bound ih =>
    intro p last found inside all
    rw [matchesFrom]
    split
    next => exact all
    next n here =>
      obtain ⟨fine, within⟩ := next inside here
      apply ih _ _ _ within
      intro m member
      rcases List.mem_cons.mp member with rfl | member
      · exact fine
      · exact all m member

/-- Each of the successive matches in a text is the preferred way from some point. -/
theorem mem_matchesOf {r : Regex} (steady : r.steady = true) {text : List Char} {m : Match}
    (member : m ∈ r.matchesOf text) : ∃ p, p.In text ∧ r.preferred? p = some m := by
  refine matchesOf_of_search (P := fun m => ∃ p, p.In text ∧ r.preferred? p = some m)
    (fun inside found => ?_) member
  obtain ⟨q, within, here⟩ := search?_preferred steady inside found
  exact ⟨⟨q, within, here⟩, preferred?_within within here⟩

/-- Where an expression matches, there is a first match. -/
theorem exists_mem_matchesOf {r : Regex} {text : List Char} (found : r.matchesIn text = true) :
    ∃ m, m ∈ r.matchesOf text := by
  obtain ⟨m, first⟩ := Option.isSome_iff_exists.mp found
  have next : r.nextMatch? (.start text) none = some m := by
    rw [nextMatch?, first]
    simp
  have kept : ∀ (bound : Nat) (p : Point) (last : Option Nat) (found : List Match), m ∈ found →
      m ∈ r.matchesFrom bound p last found := by
    intro bound
    induction bound with
    | zero => exact fun _ _ _ member => member
    | succ bound ih =>
      intro p last found member
      rw [matchesFrom]
      split
      next => exact member
      next => exact ih _ _ _ (List.mem_cons_of_mem _ member)
  refine ⟨m, List.mem_reverse.mpr ?_⟩
  rw [matchesFrom, next]
  exact kept _ _ _ _ List.mem_cons_self

end Regex

end Ripple
