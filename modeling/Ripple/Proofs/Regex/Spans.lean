import Ripple.Proofs.Regex.Searching

/-!
Matches are spans of the text. Whatever an expression is like, and however its rounds are explored,
a match is only ever carried on character by character; so what holds of an empty match and survives
a further character holds of all matches that are found. Successive matches follow one another.
-/

namespace Ripple

namespace Rounds

section States

variable {σ : Type} {P : σ → Prop} {offset : σ → Nat}

theorem distinct_subset {es : List σ} {e : σ} (member : e ∈ distinct offset es) : e ∈ es := by
  rw [distinct_eq_thin] at member
  exact (thin_sublist offset es).subset member

theorem copies_keeps {next : Nat → List σ → List σ}
    (kept : ∀ i es, (∀ e ∈ es, P e) → ∀ f ∈ next i es, P f) (i n : Nat) {es : List σ}
    (all : ∀ e ∈ es, P e) : ∀ f ∈ copies next i n es, P f := by
  induction n generalizing i es with
  | zero =>
    cases es with
    | nil => simp [copies]
    | cons e es => exact all
  | succ n ih =>
    cases es with
    | nil => simp [copies]
    | cons e es => exact ih (i + 1) (kept i _ all)

/-- Visiting some states one after another keeps what visiting each of them keeps. -/
theorem foldl_keeps {ξ : Type} {found : ξ → List σ} {visit : ξ → σ → ξ} {es : List σ}
    (each : ∀ e ∈ es, ∀ x, (∀ f ∈ found x, P f) → ∀ f ∈ found (visit x e), P f) {x : ξ}
    (all : ∀ f ∈ found x, P f) : ∀ f ∈ found (es.foldl visit x), P f := by
  induction es generalizing x with
  | nil => exact all
  | cons e es ih =>
    simp only [List.mem_cons, forall_eq_or_imp] at each
    exact ih each.2 (each.1 x all)

section Explored

variable {next : σ → List σ} (kept : ∀ e, P e → ∀ f ∈ next e, P f)

include kept

theorem further_keeps (greedy : Bool) (bound : List Char) {e : σ} (here : P e) {x : Explored σ}
    (all : ∀ f ∈ x.found, P f) : ∀ f ∈ (further offset next greedy bound e x).found, P f := by
  induction bound generalizing e x with
  | nil =>
    rw [further_nil]
    split
    · exact all
    · cases greedy <;> simpa using ⟨here, all⟩
  | cons c bound ih =>
    rw [further_cons]
    split
    · exact all
    · -- A greedy search finds the state itself behind what follows it, another one before.
      have visited : ∀ x : Explored σ, (∀ f ∈ x.found, P f) → ∀ f ∈ ((next e).foldl
          (fun x f => further offset next greedy bound f x) x).found, P f :=
        fun x all => foldl_keeps (fun f member x all => ih (kept e here f member) all) all
      cases greedy with
      | false => exact visited _ (by simpa using ⟨here, all⟩)
      | true =>
        simp only [if_true, List.mem_cons, forall_eq_or_imp]
        exact ⟨here, visited _ all⟩

theorem many_keeps (greedy : Bool) (bound : σ → List Char) {es : List σ} (all : ∀ e ∈ es, P e) :
    ∀ f ∈ many offset next greedy bound es, P f := by
  intro f member
  refine foldl_keeps (fun e listed x found => further_keeps kept greedy (bound e) (all e listed) found)
    ?_ f (List.mem_reverse.mp member)
  simp

theorem anyNumber_keeps (greedy : Bool) (bound : σ → List Char) {es : List σ}
    (all : ∀ e ∈ es, P e) : ∀ f ∈ anyNumber offset next greedy bound es, P f := by
  intro f member
  have listed := List.mem_reverse.mp (distinct_subset member)
  refine foldl_keeps (fun e here x found => ?_) (by simp) f listed
  have visited : ∀ x : Explored σ, (∀ f ∈ x.found, P f) → ∀ f ∈ ((next e).foldl
      (fun x f => further offset next greedy (bound f) f x) x).found, P f :=
    fun x found => foldl_keeps
      (fun f member x found => further_keeps kept greedy (bound f) (kept e (all e here) f member) found)
      found
  cases greedy with
  | false => exact visited _ (by simpa using ⟨all e here, found⟩)
  | true =>
    simp only [anyNumber.visit, if_true, List.mem_cons, forall_eq_or_imp]
    exact ⟨all e here, visited _ found⟩

end Explored

section Counted

variable {next : Nat → σ → List σ} (kept : ∀ n e, P e → ∀ f ∈ next n e, P f)

include kept

theorem atMost_keeps (greedy : Bool) (n : Nat) {e : σ} (here : P e) {x : Counted σ}
    (all : ∀ f ∈ x.found, P f) : ∀ f ∈ (atMost offset next greedy n e x).found, P f := by
  induction n generalizing e x with
  | zero =>
    rw [atMost_zero]
    split
    · exact all
    · cases greedy <;> simpa using ⟨here, all⟩
  | succ n ih =>
    rw [atMost_succ]
    split
    · exact all
    · have visited : ∀ x : Counted σ, (∀ f ∈ x.found, P f) → ∀ f ∈ ((next n e).foldl
          (fun x f => atMost offset next greedy n f x) x).found, P f :=
        fun x all => foldl_keeps (fun f member x all => ih (kept n e here f member) all) all
      cases greedy with
      | false => exact visited _ (by simpa using ⟨here, all⟩)
      | true =>
        simp only [if_true, List.mem_cons, forall_eq_or_imp]
        exact ⟨here, visited _ all⟩

theorem upTo_keeps (greedy : Bool) (n : Nat) {es : List σ} (all : ∀ e ∈ es, P e) :
    ∀ f ∈ upTo offset next greedy n es, P f := by
  intro f member
  refine foldl_keeps (fun e listed x found => atMost_keeps kept greedy n (all e listed) found) ?_ f
    (List.mem_reverse.mp (distinct_subset member))
  simp

end Counted

end States

end Rounds

open Rounds

/-- Choices only decide which ways go on, whatever places they are made at. -/
theorem Way.reach_keeps {P : Match → Prop} {ws : List Way} (choice : Place)
    (all : ∀ w ∈ ws, P w.toMatch) : ∀ w ∈ ws.filterMap (·.reach? choice), P w.toMatch := by
  intro w member
  obtain ⟨v, listed, reach⟩ := List.mem_filterMap.mp member
  rw [Way.reach?] at reach
  split at reach
  · contradiction
  · cases reach
    exact all v listed

theorem Regex.ways_rep_keeps {P : Match → Prop} {r : Regex} {min : Nat} {max : Option Nat}
    {greedy : Bool} {place : Place} (round : ∀ (place : Place) (ws : List Way),
      (∀ w ∈ ws, P w.toMatch) → ∀ w ∈ r.ways place ws, P w.toMatch) {ws : List Way}
    (all : ∀ w ∈ ws, P w.toMatch) :
    ∀ w ∈ (rep r min max greedy).ways place ws, P w.toMatch := by
  have alone : ∀ w : Way, P w.toMatch → ∀ v ∈ [w], P v.toMatch := by simp
  -- The rounds that must be taken come first, the others go by what is reached from there.
  unfold Regex.ways
  cases max with
  | some max =>
    have start := copies_keeps (fun i => round (i :: 0 :: place)) 0 min all
    dsimp only
    split
    · exact start
    · refine upTo_keeps ?_ greedy _ (Way.reach_keeps _ start)
      intro n w here
      have ends := round ((max - n) :: 0 :: place) [w] (alone w here)
      split
      · exact ends
      · exact Way.reach_keeps _ ends
  | none =>
    have again : ∀ ws : List Way, (∀ w ∈ ws, P w.toMatch) → ∀ w ∈
        (r.ways (min :: 0 :: place) ws).filterMap (·.reach? (0 :: 1 :: place)), P w.toMatch :=
      fun ws all => Way.reach_keeps _ (round _ ws all)
    have next := fun (w : Way) (here : P w.toMatch) => again [w] (alone w here)
    cases min with
    | zero =>
      dsimp only
      split
      · exact anyNumber_keeps next greedy _ (Way.reach_keeps _ all)
      · exact many_keeps next greedy _ (Way.reach_keeps _ all)
    | succ n =>
      have start := copies_keeps (fun i => round (i :: 0 :: place)) 0 n all
      exact many_keeps next greedy _ (again _ start)

/-- What a match does not lose when it is carried on. -/
structure Survives (P : Match → Prop) : Prop where
  behind : ∀ {m : Match} {c : Char} {cs : List Char}, P m → m.stop.rest = c :: cs → P (m.behind c cs)
  enter : ∀ {m : Match} (i : Nat), P m → P (m.enter i)
  leave : ∀ {m : Match} (i : Nat), P m → P (m.leave i)

namespace Survives

variable {P : Match → Prop} (survives : Survives P)

include survives

theorem step? {m n : Match} {test : Char → Bool} (here : P m) (stepped : m.step? test = some n) :
    P n := by
  rw [Match.step?] at stepped
  split at stepped
  next c cs rest =>
    split at stepped
    · cases stepped
      exact survives.behind here rest
    · contradiction
  next => contradiction

theorem run (test : Char → Bool) (known : Nat → Bool) {cs : List Char} (limit : Option Nat)
    {m : Match} (rest : m.stop.rest = cs) (here : P m) {found : List Match}
    (all : ∀ n ∈ found, P n) : ∀ n ∈ Regex.run test known cs limit m found, P n := by
  induction cs generalizing limit m found with
  | nil => exact all
  | cons c cs ih =>
    rw [Regex.run]
    split
    · dsimp only
      split
      · exact all
      · have next := survives.behind here rest
        exact ih _ rfl next (by simpa using ⟨next, all⟩)
    · exact all

theorem runOne (test : Char → Bool) (limit : Option Nat) (greedy : Bool) {m : Match} (here : P m) :
    ∀ n ∈ Regex.runOne test limit greedy m, P n := by
  have start : ∀ n ∈ [m], P n := by simpa using here
  have found := survives.run test (fun _ => false) limit rfl here start
  cases greedy with
  | false => exact fun n member => found n (List.mem_reverse.mp member)
  | true => exact found

theorem explore (test : Char → Bool) (greedy : Bool) {x : Explored Match} {m : Match} (here : P m)
    (all : ∀ n ∈ x.found, P n) : ∀ n ∈ (Regex.explore test greedy x m).found, P n := by
  rw [Regex.explore]
  split
  · exact all
  · have start : ∀ n ∈ [m], P n := by simpa using here
    have found := survives.run test x.seen.contains none rfl here start
    intro n member
    rcases List.mem_append.mp member with member | member
    · cases greedy with
      | false => exact found n member
      | true => exact found n (List.mem_reverse.mp member)
    · exact all n member

theorem runs (test : Char → Bool) (greedy : Bool) {ms : List Match} (all : ∀ m ∈ ms, P m) :
    ∀ n ∈ Regex.runs test greedy ms, P n := by
  unfold Regex.runs
  split
  next m => exact survives.runOne test none greedy (all m (List.mem_singleton_self m))
  next =>
    intro n member
    refine foldl_keeps (fun m listed x found => survives.explore test greedy (all m listed) found)
      ?_ n (List.mem_reverse.mp member)
    simp

theorem further {r : Regex} {body : List Match → List Match}
    (kept : ∀ ms, (∀ m ∈ ms, P m) → ∀ n ∈ body ms, P n) (limit : Option Nat) (greedy : Bool)
    {ms : List Match} (all : ∀ m ∈ ms, P m) : ∀ n ∈ r.further body limit greedy ms, P n := by
  have alone : ∀ m, P m → ∀ n ∈ body [m], P n := fun m here => kept [m] (by simpa using here)
  unfold Regex.further
  split
  next test _ => exact survives.runs test greedy all
  next test limit _ =>
    intro n member
    obtain ⟨m, listed, found⟩ := List.mem_flatMap.mp (distinct_subset member)
    exact survives.runOne test _ greedy (all m listed) n found
  next => exact upTo_keeps (fun _ => alone) greedy _ all
  next => exact many_keeps alone greedy _ all

theorem steps {ws : List Way} (test : Char → Bool) (all : ∀ w ∈ ws, P w.toMatch) :
    ∀ w ∈ ws.filterMap (·.step? test), P w.toMatch := by
  intro w member
  obtain ⟨v, listed, taken⟩ := List.mem_filterMap.mp member
  obtain ⟨m, step, rfl⟩ := Option.map_eq_some_iff.mp taken
  exact survives.step? (all v listed) step

theorem ways (r : Regex) (place : Place) {ws : List Way} (all : ∀ w ∈ ws, P w.toMatch) :
    ∀ w ∈ r.ways place ws, P w.toMatch := by
  induction r generalizing place ws with
  | empty => exact all
  | char c => exact survives.steps _ all
  | set s => exact survives.steps _ all
  | assert a => exact fun w member => all w (List.mem_filter.mp member).1
  | seq r s first second =>
    rw [Regex.ways]
    split
    next => simp
    next => exact second _ (first _ all)
  | alt r s left right =>
    intro w member
    obtain ⟨v, listed, found⟩ := List.mem_flatMap.mp (distinct_subset member)
    have here : ∀ o ∈ [v], P o.toMatch := by simpa using Way.reach_keeps place all v listed
    rcases List.mem_append.mp found with found | found
    · exact left _ here w found
    · exact right _ here w found
  | group i r ih =>
    intro w member
    obtain ⟨o, found, rfl⟩ := List.mem_map.mp member
    refine survives.leave i (ih _ ?_ o found)
    intro v listed
    obtain ⟨o, before, rfl⟩ := List.mem_map.mp listed
    exact survives.enter i (all o before)
  | rep r min max greedy ih => exact Regex.ways_rep_keeps (fun place ws all => ih place all) all

theorem extend (r : Regex) {ms : List Match} (all : ∀ m ∈ ms, P m) : ∀ n ∈ r.extend ms, P n := by
  induction r generalizing ms with
  | empty => exact all
  | char c =>
    intro n member
    obtain ⟨m, listed, stepped⟩ := List.mem_filterMap.mp member
    exact survives.step? (all m listed) stepped
  | set s =>
    intro n member
    obtain ⟨m, listed, stepped⟩ := List.mem_filterMap.mp member
    exact survives.step? (all m listed) stepped
  | assert a => exact fun n member => all n (List.mem_filter.mp member).1
  | seq r s first second =>
    rw [Regex.extend]
    split
    next => simp
    next => exact second (first all)
  | alt r s left right =>
    intro n member
    obtain ⟨m, listed, found⟩ := List.mem_flatMap.mp (distinct_subset member)
    have here : ∀ o ∈ [m], P o := by simpa using all m listed
    rcases List.mem_append.mp found with found | found
    · exact left here n found
    · exact right here n found
  | group i r ih =>
    intro n member
    obtain ⟨o, found, rfl⟩ := List.mem_map.mp member
    refine survives.leave i (ih ?_ o found)
    intro m listed
    obtain ⟨o, before, rfl⟩ := List.mem_map.mp listed
    exact survives.enter i (all o before)
  | rep r min max greedy ih =>
    rw [Regex.extend]
    split
    · intro n member
      obtain ⟨w, found, rfl⟩ := List.mem_map.mp member
      refine survives.ways _ [] ?_ w found
      intro w listed
      obtain ⟨m, before, rfl⟩ := List.mem_map.mp listed
      exact all m before
    · exact survives.further (fun ms all => ih all) _ greedy
        (copies_keeps (fun _ ms all => ih all) 0 min all)

theorem outcomes {r : Regex} {m n : Match} (here : P m) (member : n ∈ r.outcomes m) : P n := by
  induction r generalizing m n with
  | empty =>
    rw [Regex.outcomes, List.mem_singleton] at member
    rwa [member]
  | char | set =>
    rw [Regex.outcomes, Option.mem_toList] at member
    exact survives.step? here member
  | assert a =>
    rw [Regex.outcomes] at member
    split at member
    · rwa [List.mem_singleton.mp member]
    · simp at member
  | seq r s ihr ihs =>
    obtain ⟨o, first, second⟩ := List.mem_flatMap.mp member
    exact ihs (ihr here first) second
  | alt r s ihr ihs =>
    rcases List.mem_append.mp member with member | member
    · exact ihr here member
    · exact ihs here member
  | group i r ih =>
    obtain ⟨o, inner, rfl⟩ := List.mem_map.mp member
    exact survives.leave i (ih (survives.enter i here) inner)
  | rep r min max greedy ih =>
    obtain ⟨o, first, second⟩ := List.mem_flatMap.mp member
    obtain ⟨k, _, more⟩ := mem_ends_iff.mp second
    -- The required rounds and the further ones are rounds in a row.
    exact (mem_exactly_iff.mp first).add more |>.keeps (fun _ _ => ih) here

/-- What survives holds of what a search finds, if it holds of the empty matches that the search
begins with. -/
theorem search? {r : Regex} {p : Point} (each : ∀ w q, p.Reads w q → P (.ofPoint q)) {m : Match}
    (found : r.search? p = some m) : P m := by
  have extended : ∀ {ps : List Point}, (∀ q ∈ ps, ∃ w, p.Reads w q) →
      ∀ n ∈ r.extend (ps.map .ofPoint), P n := by
    intro ps later
    refine survives.extend r fun n listed => ?_
    obtain ⟨q, here, rfl⟩ := List.mem_map.mp listed
    obtain ⟨w, reads⟩ := later q here
    exact each w q reads
  -- The blocks grow from one round to the next, so the bound is inducted on for all sizes of them.
  suffices general : ∀ (bound : List Char) (size : Nat) (o : Point), (∃ w, p.Reads w o) →
      r.searchFrom bound size o = some m → P m from general _ _ p ⟨[], rfl⟩ found
  clear found
  intro bound
  induction bound with
  | nil =>
    intro size o later found
    have alone : ∀ q ∈ [o], ∃ w, p.Reads w q := by simpa using later
    exact extended alone m (List.mem_of_head? found)
  | cons c bound ih =>
    rintro size o ⟨u, first⟩ found
    obtain ⟨next, block, _, behind⟩ := Point.blockFrom_eq size o []
    rw [Regex.searchFrom, Point.block, block, List.reverse_nil, List.nil_append] at found
    have onward : ∀ q ∈ (Point.onward o.rest o).take size, ∃ w, p.Reads w q := by
      intro q member
      obtain ⟨w, reads⟩ := Point.mem_onward_iff.mp (List.mem_of_mem_take member)
      exact ⟨u ++ w, first.trans reads⟩
    cases block : r.extend (((Point.onward o.rest o).take size).map .ofPoint) with
    | cons n ms =>
      simp only [block, Option.some.injEq] at found
      subst found
      exact extended onward n (block ▸ List.mem_cons_self)
    | nil =>
      simp only [block] at found
      cases next with
      | none => contradiction
      | some q =>
        obtain ⟨_, w, reads⟩ := behind q rfl
        exact ih _ q ⟨u ++ w, first.trans reads⟩ found

end Survives

namespace Point

/-- The text leads from one point to another. -/
def Reaches (p q : Point) : Prop := ∃ w, p.Reads w q

theorem Reaches.refl (p : Point) : p.Reaches p := ⟨[], rfl⟩

theorem Reaches.trans {p o q : Point} (first : p.Reaches o) (second : o.Reaches q) :
    p.Reaches q := by
  obtain ⟨u, reads⟩ := first
  obtain ⟨v, reads'⟩ := second
  exact ⟨u ++ v, reads.trans reads'⟩

end Point

namespace Match

/-- A match begins at a point or behind it, and all points that it remembers lie between its ends. -/
structure Onward (p : Point) (m : Match) : Prop where
  begins : p.Reaches m.start
  ends : m.start.Reaches m.stop
  between : ∀ e ∈ m.entered ++ m.left, m.start.Reaches e.2 ∧ e.2.Reaches m.stop

theorem onward_survives (p : Point) : Survives (Onward p) where
  behind := by
    rintro m c cs ⟨begins, ends, between⟩ rest
    have step : m.stop.Reaches (m.behind c cs).stop := ⟨[c], cs, rest, rfl⟩
    exact ⟨begins, ends.trans step,
      fun e listed => ⟨(between e listed).1, (between e listed).2.trans step⟩⟩
  enter := by
    rintro m i ⟨begins, ends, between⟩
    exact ⟨begins, ends, List.forall_mem_cons.mpr ⟨⟨ends, .refl _⟩, between⟩⟩
  leave := by
    rintro m i ⟨begins, ends, between⟩
    obtain ⟨entered, left⟩ := List.forall_mem_append.mp between
    exact ⟨begins, ends, List.forall_mem_append.mpr
      ⟨entered, List.forall_mem_cons.mpr ⟨⟨ends, .refl _⟩, left⟩⟩⟩

theorem Onward.mono {p o : Point} (before : p.Reaches o) {m : Match} (onward : m.Onward o) :
    m.Onward p :=
  ⟨before.trans onward.begins, onward.ends, onward.between⟩

/-- A group of a match lies between the ends of the match. -/
theorem Onward.group? {p : Point} {m : Match} (onward : m.Onward p) {i : Nat} {s e : Point}
    (group : m.group? i = some (s, e)) :
    (m.start.Reaches s ∧ s.Reaches m.stop) ∧ m.start.Reaches e ∧ e.Reaches m.stop := by
  have listed : ∀ {entries : List (Nat × Point)} {q : Point}, entries.lookup i = some q →
      (i, q) ∈ entries := by
    intro entries q looked
    obtain ⟨before, after, rfl, _⟩ := List.lookup_eq_some_iff.mp looked
    simp
  obtain ⟨_, begins, _, ends, same⟩ : ∃ a, m.entered.lookup i = some a ∧
      ∃ b, m.left.lookup i = some b ∧ (a, b) = (s, e) := by
    simpa [Match.group?, Option.bind_eq_some_iff] using group
  cases same
  exact ⟨onward.between _ (List.mem_append_left _ (listed begins)),
    onward.between _ (List.mem_append_right _ (listed ends))⟩

end Match

namespace Regex

theorem search?_onward {r : Regex} {p : Point} {m : Match} (found : r.search? p = some m) :
    m.Onward p :=
  (Match.onward_survives p).search?
    (fun w _ reads => ⟨⟨w, reads⟩, .refl _, by simp [Match.ofPoint]⟩) found

theorem nextMatch?_onward {r : Regex} {p : Point} {last : Option Nat} {m : Match}
    (found : r.nextMatch? p last = some m) : m.Onward p := by
  rw [nextMatch?] at found
  split at found
  next => contradiction
  next n first =>
    split at found
    next =>
      -- An empty match where the last one ended is passed over by a step.
      split at found
      next q stepped =>
        obtain ⟨c, _, reads⟩ := Point.step?_eq_some_iff.mp stepped
        exact (search?_onward found).mono ⟨[c], reads⟩
      next => contradiction
    next =>
      cases found
      exact search?_onward first

/-- The successive matches of any expression follow one another in the text. -/
theorem matchesOf_onward (r : Regex) (text : List Char) :
    (r.matchesOf text).Pairwise (fun a b => a.stop.Reaches b.start) ∧
      ∀ m ∈ r.matchesOf text, m.Onward (.start text) := by
  -- The matches are gathered in reverse, and the search goes on behind all of them.
  suffices general : ∀ (bound : Nat) (p : Point) (last : Option Nat) (found : List Match), p.In text →
      found.Pairwise (fun a b => b.stop.Reaches a.start) →
      (∀ m ∈ found, m.Onward (.start text) ∧ m.stop.Reaches p) →
      (r.matchesFrom bound p last found).Pairwise (fun a b => b.stop.Reaches a.start) ∧
        ∀ m ∈ r.matchesFrom bound p last found, m.Onward (.start text) by
    obtain ⟨ordered, onward⟩ := general (text.length + 1) _ none [] (Point.start_in text) .nil (by simp)
    exact ⟨List.pairwise_reverse.mpr ordered, fun m member => onward m (List.mem_reverse.mp member)⟩
  intro bound
  induction bound with
  | zero => exact fun _ _ _ _ ordered all => ⟨ordered, fun m member => (all m member).1⟩
  | succ bound ih =>
    intro p last found inside ordered all
    rw [matchesFrom]
    split
    next => exact ⟨ordered, fun m member => (all m member).1⟩
    next n here =>
      have onward := nextMatch?_onward here
      have before : ∀ m ∈ found, m.stop.Reaches n.start :=
        fun m member => (all m member).2.trans onward.begins
      refine ih _ _ _ ((Point.Reaches.trans inside onward.begins).trans onward.ends)
        (List.pairwise_cons.mpr ⟨before, ordered⟩) (List.forall_mem_cons.mpr ⟨?_, fun m member => ?_⟩)
      · exact ⟨onward.mono inside, .refl _⟩
      · exact ⟨(all m member).1, (before m member).trans onward.ends⟩

/-- The groups of the matches of any expression lie in the text. -/
theorem group?_inside {r : Regex} {text : List Char} {m : Match} (found : m ∈ r.matchesOf text)
    {i : Nat} {s e : Point} (group : m.group? i = some (s, e)) : s.In text ∧ e.In text := by
  have onward := (matchesOf_onward r text).2 m found
  obtain ⟨⟨first, _⟩, second, _⟩ := onward.group? group
  exact ⟨onward.begins.trans first, onward.begins.trans second⟩

/-- A match leads from a point of the text to a later one or back to it. -/
def Spans (text : List Char) (m : Match) : Prop :=
  m.start.In text ∧ ∃ w, m.start.Reads w m.stop

/-- The matches of any expression lie in the text. -/
theorem matchesOf_spans {r : Regex} {text : List Char} {m : Match} (member : m ∈ r.matchesOf text) :
    Spans text m := by
  have onward := (matchesOf_onward r text).2 m member
  exact ⟨onward.begins, onward.ends⟩

theorem Spans.offset_le {text : List Char} {m : Match} (spans : Spans text m) :
    m.start.offset ≤ m.stop.offset ∧ m.stop.offset ≤ Point.size text := by
  obtain ⟨⟨u, first⟩, w, reads⟩ := spans
  have later := reads.offset_eq
  have whole := (first.trans reads).rest_eq
  have start := first.offset_eq
  simp only [Point.start] at whole start
  rw [whole, Point.size_append, Point.size_append]
  omega

end Regex

end Ripple
