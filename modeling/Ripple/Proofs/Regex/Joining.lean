import Ripple.Proofs.Regex.LineEnds

/-!
Searches in a text that is put together. Where whole lines are followed by more text, an expression
that reads line feeds only at its end finds in the whole what it finds in the lines, and then what it
finds in the text behind them. The points of either part are carried into the whole, and the matches
go with their points.
-/

namespace Ripple

open Rounds

namespace Rounds

variable {ν : Type} {next : ν → List ν} {P : ν → Prop} {g : ν → ν}
  (kept : ∀ e, P e → ∀ f ∈ next e, P f) (carried : ∀ e, P e → next (g e) = (next e).map g)

include kept carried

theorem exactly_map (n : Nat) {e : ν} (here : P e) :
    exactly next n (g e) = (exactly next n e).map g := by
  induction n generalizing e with
  | zero => rfl
  | succ n ih =>
    rw [exactly, exactly, carried e here, List.flatMap_map, List.map_flatMap]
    exact List.flatMap_congr fun f member => ih (kept e here f member)

theorem ends_map (greedy : Bool) (n : Nat) {e : ν} (here : P e) :
    ends next greedy n (g e) = (ends next greedy n e).map g := by
  induction n generalizing e with
  | zero => rfl
  | succ n ih =>
    have further : ((next e).map g).flatMap (ends next greedy n) =
        ((next e).flatMap (ends next greedy n)).map g := by
      rw [List.flatMap_map, List.map_flatMap]
      exact List.flatMap_congr fun f member => ih (kept e here f member)
    cases greedy <;> simp [ends, carried e here, further]

end Rounds

/-- A text of whole lines, none of which is still to be continued. -/
def Text.WholeLines (text : List Char) : Prop := text = [] ∨ ∃ lines, text = lines ++ ['\n']

/-- A line, with or without the line feed that ends it. -/
def Text.IsLine (line text : List Char) : Prop :=
  '\n' ∉ line ∧ (text = line ∨ text = line ++ ['\n'])

namespace Match

/-- A match with all of its points moved. -/
def map (f : Point → Point) (m : Match) : Match :=
  ⟨f m.start, f m.stop, m.entered.map fun e => (e.1, f e.2), m.left.map fun e => (e.1, f e.2)⟩

theorem map_enter (f : Point → Point) (m : Match) (i : Nat) : (m.map f).enter i = (m.enter i).map f :=
  rfl

theorem group?_map (f : Point → Point) (m : Match) (i : Nat) :
    (m.map f).group? i = (m.group? i).map fun g => (f g.1, f g.2) := by
  have looked : ∀ entries : List (Nat × Point),
      (entries.map fun e => (e.1, f e.2)).lookup i = (entries.lookup i).map f := by
    intro entries
    induction entries with
    | nil => rfl
    | cons e entries ih =>
      rw [List.map_cons, List.lookup_cons, List.lookup_cons, ih]
      split <;> rfl
  simp only [group?, map, looked]
  cases m.entered.lookup i <;> cases m.left.lookup i <;> rfl

end Match

namespace Point

/-- The points of a text are carried into another text, and from the inner ones an expression sees
the same there. Only a line feed leads from an inner point to one that is not. -/
structure Carries (text : List Char) (inner : Point → Prop) (f : Point → Point) : Prop where
  inside : ∀ {p}, inner p → p.In text
  step? : ∀ {p}, inner p → ∀ test, (f p).step? test = (p.step? test).map f
  holds : ∀ {p}, inner p → ∀ a : Assertion, a ≠ .textStart → a.holds (f p) = a.holds p
  longer : ∀ p, p.rest.length ≤ (f p).rest.length
  stays : ∀ {p q c}, inner p → p.Reads [c] q → c ≠ '\n' → inner q

namespace Carries

variable {text : List Char} {inner : Point → Prop} {f : Point → Point} (carries : Carries text inner f)

include carries

theorem stays_reads {p q : Point} {w : List Char} (here : inner p) (reads : p.Reads w q)
    (single : '\n' ∉ w) : inner q := by
  induction w generalizing p with
  | nil => rwa [reads_nil.mp reads]
  | cons c w ih =>
    obtain ⟨o, first, rest⟩ := reads.uncons
    rw [List.mem_cons, not_or] at single
    exact ih (carries.stays here first (Ne.symm single.1)) rest single.2

theorem stays_outcomes {r : Regex} (avoids : r.avoids '\n' = true) {m n : Match}
    (here : inner m.stop) (member : n ∈ r.outcomes m) : inner n.stop := by
  obtain ⟨w, reads, single⟩ := (Regex.outcomes_takes member).avoids avoids
  exact carries.stays_reads here reads single

theorem match_step? {m : Match} (here : inner m.stop) (test : Char → Bool) :
    (m.map f).step? test = (m.step? test).map (Match.map f) := by
  rw [Match.step?_eq, Match.step?_eq, Match.map, carries.step? here, Option.map_map, Option.map_map]
  rfl

end Carries

end Point

namespace Regex

/-- Whether line feeds are read only at the end of an expression, and the beginning of the text is
not asked for. -/
def lineBound : Regex → Bool
  | empty | char _ | set _ => true
  | assert a => a ≠ .textStart
  | seq r s => r.lineBound && r.avoids '\n' && s.lineBound
  | alt r s => r.lineBound && s.lineBound
  | group _ r => r.lineBound
  | rep r _ _ _ => r.lineBound && r.avoids '\n'

/-- What an expression finds from an inner point is carried along. -/
theorem outcomes_map {text : List Char} {inner : Point → Prop} {f : Point → Point}
    (carries : Point.Carries text inner f) {r : Regex} (steady : r.steady = true)
    (bound : r.lineBound = true) {m : Match} (here : inner m.stop) :
    r.outcomes (m.map f) = (r.outcomes m).map (Match.map f) := by
  induction r generalizing m with
  | empty => rfl
  | char | set =>
    rw [outcomes, outcomes, carries.match_step? here]
    cases m.step? _ <;> rfl
  | assert a =>
    have same : a.holds (m.map f).stop = a.holds m.stop :=
      carries.holds here a (by simpa [lineBound] using bound)
    rw [outcomes, outcomes, same]
    split <;> rfl
  | seq r s ihr ihs =>
    simp only [Regex.steady, lineBound, Bool.and_eq_true] at steady bound
    rw [outcomes, outcomes, ihr steady.1 bound.1.1 here, List.flatMap_map, List.map_flatMap]
    exact List.flatMap_congr fun n member =>
      ihs steady.2 bound.2 (carries.stays_outcomes bound.1.2 here member)
  | alt r s ihr ihs =>
    simp only [Regex.steady, lineBound, Bool.and_eq_true] at steady bound
    rw [outcomes, outcomes, ihr steady.1 bound.1 here, ihs steady.2 bound.2 here, List.map_append]
  | group i r ih =>
    rw [outcomes, outcomes, Match.map_enter, ih steady bound (m := m.enter i) here, List.map_map,
      List.map_map]
    rfl
  | rep r min max greedy ih =>
    simp only [Regex.steady, lineBound, Bool.and_eq_true, Bool.or_eq_true, Bool.not_eq_true']
      at steady bound
    have kept : ∀ n : Match, inner n.stop → ∀ o ∈ r.outcomes n, inner o.stop :=
      fun n inner o => carries.stays_outcomes bound.2 inner
    have carried : ∀ n : Match, inner n.stop → r.outcomes (n.map f) = (r.outcomes n).map (Match.map f) :=
      fun n inner => ih steady.1 bound.1 inner
    rw [outcomes, outcomes, exactly_map kept carried min here, List.flatMap_map, List.map_flatMap]
    refine List.flatMap_congr fun n member => ?_
    have inner : inner n.stop :=
      (mem_exactly_iff.mp member).keeps (fun e f inner member => kept e inner f member) here
    cases max with
    | some most => exact ends_map kept carried greedy _ inner
    | none =>
      -- The rounds are bounded by the length of the text, which may be another one there.
      have consumes : r.nullable = false := by simpa using steady.2
      have stable := ends_stable (outcomes_forward steady.1 consumes text) greedy
        (show Within text n from carries.inside inner) (Nat.le_refl _) (carries.longer n.stop)
      have same : ends r.outcomes greedy n.stop.rest.length n =
        ends r.outcomes greedy (f n.stop).rest.length n := stable
      simp only [Option.map_none, Option.getD_none, same]
      exact ends_map kept carried greedy _ inner

theorem preferred?_map {text : List Char} {inner : Point → Prop} {f : Point → Point}
    (carries : Point.Carries text inner f) {r : Regex} (steady : r.steady = true)
    (bound : r.lineBound = true) {p : Point} (here : inner p) :
    r.preferred? (f p) = (r.preferred? p).map (Match.map f) := by
  rw [preferred?, preferred?, ← List.head?_map, ← outcomes_map carries steady bound (m := .ofPoint p) here]
  rfl

end Regex

namespace Point

/-- The same point when a text stands in front. -/
def prepend (front : List Char) (p : Point) : Point :=
  ⟨size front + p.offset, p.before.or front.getLast?, p.rest⟩

/-- The same point when a text follows. -/
def append (back : List Char) (p : Point) : Point := { p with rest := p.rest ++ back }

/-- Where the first part ends, the second one begins. -/
theorem append_eq_prepend {front : List Char} {p : Point} (inside : p.In front) (last : p.rest = [])
    (back : List Char) : p.append back = (start back).prepend front := by
  obtain ⟨w, reads⟩ := inside
  have whole : front = w := by simpa [start, last] using reads.rest_eq
  have offset := reads.offset_eq
  have before := before_eq_getLast? reads
  simp only [start, Nat.zero_add] at offset
  rw [append, prepend, last, offset, before, whole]
  rfl

theorem Reads.prepend {p q : Point} {w : List Char} (reads : p.Reads w q) (front : List Char) :
    (p.prepend front).Reads w (q.prepend front) := by
  induction w generalizing p with
  | nil => rw [reads_nil.mp reads, reads_nil]
  | cons c w ih =>
    obtain ⟨cs, rest, reads⟩ := reads
    refine ⟨cs, rest, ?_⟩
    have next : (p.behind c cs).prepend front = (p.prepend front).behind c cs := by
      simp [Point.prepend, behind, Nat.add_assoc]
    exact next ▸ ih reads

theorem Reads.append {p q : Point} {w : List Char} (reads : p.Reads w q) (back : List Char) :
    (p.append back).Reads w (q.append back) := by
  induction w generalizing p with
  | nil => rw [reads_nil.mp reads, reads_nil]
  | cons c w ih =>
    obtain ⟨cs, rest, reads⟩ := reads
    exact ⟨cs ++ back, by rw [Point.append, rest, List.cons_append], ih reads⟩

theorem In.behind {text : List Char} {p : Point} (inside : p.In text) {c : Char} {cs : List Char}
    (rest : p.rest = c :: cs) : (p.behind c cs).In text :=
  inside.reads (w := [c]) ⟨cs, rest, rfl⟩

theorem In.append {front : List Char} {p : Point} (inside : p.In front) (back : List Char) :
    (p.append back).In (front ++ back) := by
  obtain ⟨w, reads⟩ := inside
  exact ⟨w, reads.append back⟩

/-- A point of the text behind is come to through the text in front. -/
theorem reads_prepend {back w : List Char} {p : Point} (reads : (start back).Reads w p)
    (front : List Char) : (start (front ++ back)).Reads (front ++ w) (p.prepend front) := by
  obtain ⟨q, first, last⟩ := exists_reads (p := start front) (List.append_nil front).symm
  have begins := first.append back
  rw [append_eq_prepend ⟨front, first⟩ last] at begins
  exact begins.trans (reads.prepend front)

theorem In.prepend {back : List Char} {p : Point} (inside : p.In back) (front : List Char) :
    (p.prepend front).In (front ++ back) := by
  obtain ⟨w, reads⟩ := inside
  exact ⟨front ++ w, reads_prepend reads front⟩

theorem holds_prepend {front : List Char} (whole : Text.WholeLines front) (p : Point) {a : Assertion}
    (other : a ≠ .textStart) : a.holds (p.prepend front) = a.holds p := by
  have feed : Unicode.isWord '\n' = false ∧ Assertion.isAsciiWord '\n' = false := by decide +kernel
  -- A line feed before a point says as much as that there is nothing before it.
  have last : front.getLast? = none ∨ front.getLast? = some '\n' := by
    rcases whole with rfl | ⟨lines, rfl⟩
    · exact .inl rfl
    · exact .inr (by simp)
  obtain ⟨offset, before, rest⟩ := p
  cases before with
  | some c => cases a <;> rfl
  | none =>
    rcases last with last | last
    · simp only [prepend, last]
      cases a <;> rfl
    · cases a with
      | textStart => exact absurd rfl other
      | word edge asciiOnly =>
        cases asciiOnly <;> simp [Assertion.holds, prepend, last, feed]
      | crlfLineEnd =>
        have apart : (some '\n' != some '\r') = (none != some '\r') := by decide
        simp only [Assertion.holds, prepend, last, Option.none_or, apart]
      | _ => simp [Assertion.holds, prepend, last]

theorem prepend_carries {front : List Char} (whole : Text.WholeLines front) (back : List Char) :
    Carries back (In back) (prepend front) where
  inside := id
  step? {p} _ test := by
    rw [step?, step?, prepend]
    cases p.rest with
    | nil => rfl
    | cons c cs =>
      dsimp only
      split <;> simp [behind, prepend, Nat.add_assoc]
  holds {p} _ a := holds_prepend whole p
  longer _ := Nat.le_refl _
  stays inside reads _ := inside.reads reads

theorem append_carries {front : List Char} (whole : Text.WholeLines front) (back : List Char) :
    Carries front (fun p => p.In front ∧ p.rest ≠ []) (append back) where
  inside := And.left
  step? {p} inner test := by
    rw [step?, step?, append]
    obtain ⟨c, cs, rest⟩ := List.exists_cons_of_ne_nil inner.2
    rw [rest]
    dsimp only [List.cons_append]
    split <;> rfl
  holds {p} inner a _ := by
    obtain ⟨c, cs, rest⟩ := List.exists_cons_of_ne_nil inner.2
    cases a <;> simp [Assertion.holds, append, rest]
  longer p := by simp [append]
  stays {p q c} inner reads other := by
    refine ⟨inner.1.reads reads, fun last => ?_⟩
    -- The last character of whole lines is a line feed.
    obtain ⟨w, before⟩ := inner.1
    have text : front = w ++ [c] := by simpa [start, last] using (before.trans reads).rest_eq
    rcases whole with rfl | ⟨lines, rfl⟩
    · simp at text
    · have same := (List.append_inj' text rfl).2
      exact other (List.singleton_inj.mp same).symm

end Point

namespace Regex

/-- Whether an expression may be tried on each part of a text that is put together from whole lines
and more text. -/
def joins (r : Regex) : Bool := r.steady && !r.nullable && r.lineBound

theorem joins_iff {r : Regex} :
    r.joins = true ↔ r.steady = true ∧ r.nullable = false ∧ r.lineBound = true := by
  simp [joins, and_assoc]

/-- A search looks at a point and, if there is no match, goes on from the next one. -/
theorem search?_of_cons {r : Regex} (steady : r.steady = true) {text : List Char} {p : Point}
    (inside : p.In text) {c : Char} {cs : List Char} (rest : p.rest = c :: cs) :
    r.search? p = (r.preferred? p).or (r.search? (p.behind c cs)) := by
  have next := inside.behind rest
  rw [search?_eq steady inside, search?_eq steady next, rest, Point.onward, List.findSome?_cons]
  cases r.preferred? p <;> rfl

theorem search?_of_nil {r : Regex} (steady : r.steady = true) {text : List Char} {p : Point}
    (inside : p.In text) (rest : p.rest = []) : r.search? p = r.preferred? p := by
  rw [search?_eq steady inside, rest, Point.onward, List.findSome?_singleton]

/-- The successive matches from a point on. -/
inductive Successive (r : Regex) : Point → List Match → Prop
  | none {p : Point} : r.search? p = none → Successive r p []
  | found {p : Point} {m : Match} {ms : List Match} :
      r.search? p = some m → Successive r m.stop ms → Successive r p (m :: ms)

theorem Successive.unique {r : Regex} {p : Point} {ms ns : List Match} (first : r.Successive p ms)
    (second : r.Successive p ns) : ms = ns := by
  induction first generalizing ns with
  | none nothing =>
    cases second with
    | none => rfl
    | found found =>
      rw [nothing] at found
      contradiction
  | found here _ ih =>
    cases second with
    | none nothing =>
      rw [nothing] at here
      contradiction
    | found found rest =>
      rw [found] at here
      cases here
      rw [ih rest]

theorem Successive.congr {r : Regex} {p q : Point} {ms : List Match} (same : r.search? p = r.search? q)
    (successive : r.Successive q ms) : r.Successive p ms := by
  cases successive with
  | none nothing => exact .none (same.trans nothing)
  | found here rest => exact .found (same.trans here) rest

/-- An expression that consumes something has no empty match to pass over. -/
theorem matchesOf_successive {r : Regex} (steady : r.steady = true) (consumes : r.nullable = false)
    (text : List Char) : r.Successive (.start text) (r.matchesOf text) := by
  -- The matches are gathered in reverse behind those found before, within a bound that is never met.
  suffices general : ∀ (bound : Nat) (p : Point) (last : Option Nat) (found : List Match),
      p.In text → p.rest.length < bound →
      ∃ ms, r.Successive p ms ∧ r.matchesFrom bound p last found = ms.reverse ++ found by
    obtain ⟨ms, successive, gathered⟩ :=
      general (text.length + 1) _ none [] (Point.start_in text) (Nat.lt_succ_self _)
    rw [matchesOf, gathered, List.append_nil, List.reverse_reverse]
    exact successive
  intro bound
  induction bound with
  | zero => exact fun _ _ _ _ small => absurd small (Nat.not_lt_zero _)
  | succ bound ih =>
    intro p last found inside enough
    rw [matchesFrom, nextMatch?_eq steady consumes inside]
    cases here : r.search? p with
    | none => exact ⟨[], .none here, rfl⟩
    | some m =>
      obtain ⟨within, shorter, _⟩ := search?_goes_on steady consumes inside here
      obtain ⟨ms, successive, gathered⟩ :=
        ih m.stop (some m.stop.offset) (m :: found) within (by omega)
      exact ⟨m :: ms, .found here successive, by simp [gathered]⟩

section Joining

variable {front back : List Char} {r : Regex} (whole : Text.WholeLines front) (joins : r.joins = true)

include whole joins

theorem search?_prepend {p : Point} (inside : p.In back) :
    r.search? (p.prepend front) = (r.search? p).map (Match.map (.prepend front)) := by
  obtain ⟨steady, _, bound⟩ := joins_iff.mp joins
  have here : ∀ {p : Point}, p.In back →
      r.preferred? (p.prepend front) = (r.preferred? p).map (Match.map (.prepend front)) :=
    fun inside => preferred?_map (Point.prepend_carries whole back) steady bound inside
  generalize rest : p.rest = cs
  induction cs generalizing p with
  | nil =>
    rw [search?_of_nil steady inside rest, search?_of_nil steady (inside.prepend front) rest,
      here inside]
  | cons c cs ih =>
    have next : (p.prepend front).behind c cs = (p.behind c cs).prepend front := by
      simp [Point.prepend, Point.behind, Nat.add_assoc]
    rw [search?_of_cons steady inside rest, search?_of_cons steady (inside.prepend front) rest,
      here inside, next, ih (inside.behind rest) rfl]
    cases r.preferred? p <;> rfl

/-- A search that finds nothing more in the lines goes on in the text behind them. -/
theorem search?_append {p : Point} (inside : p.In front) :
    r.search? (p.append back) = ((r.search? p).map (Match.map (.append back))).or
      ((r.search? (.start back)).map (Match.map (.prepend front))) := by
  obtain ⟨steady, consumes, bound⟩ := joins_iff.mp joins
  generalize rest : p.rest = cs
  induction cs generalizing p with
  | nil =>
    -- At the end of the lines nothing is left to be consumed.
    have none : r.preferred? p = none := by
      rw [preferred?, List.head?_eq_none_iff, List.eq_nil_iff_forall_not_mem]
      intro n member
      have shorter := (outcomes_takes member).rest_lt consumes
      simp [Match.ofPoint, rest] at shorter
    rw [search?_of_nil steady inside rest, none, Point.append_eq_prepend inside rest,
      search?_prepend whole joins (Point.start_in back)]
    rfl
  | cons c cs ih =>
    have here := preferred?_map (Point.append_carries whole back) steady bound
      (p := p) ⟨inside, by simp [rest]⟩
    have more : (p.append back).rest = c :: (cs ++ back) := by
      rw [Point.append, rest, List.cons_append]
    have next : (p.append back).behind c (cs ++ back) = (p.behind c cs).append back := rfl
    rw [search?_of_cons steady inside rest, search?_of_cons steady (inside.append back) more, here,
      next, ih (inside.behind rest) rfl]
    cases r.preferred? p <;> rfl

theorem Successive.prepend {p : Point} {ms : List Match} (inside : p.In back)
    (successive : r.Successive p ms) :
    r.Successive (p.prepend front) (ms.map (.map (.prepend front))) := by
  obtain ⟨steady, consumes, _⟩ := joins_iff.mp joins
  induction successive with
  | none nothing =>
    apply Successive.none
    rw [search?_prepend whole joins inside, nothing]
    rfl
  | found here _ ih =>
    refine .found (m := Match.map _ _) ?_ (ih (search?_goes_on steady consumes inside here).1)
    rw [search?_prepend whole joins inside, here]
    rfl

theorem Successive.append {p : Point} {ms ns : List Match} (inside : p.In front)
    (first : r.Successive p ms) (second : r.Successive (.start back) ns) :
    r.Successive (p.append back)
      (ms.map (.map (.append back)) ++ ns.map (.map (.prepend front))) := by
  obtain ⟨steady, consumes, _⟩ := joins_iff.mp joins
  induction first with
  | none nothing =>
    refine (second.prepend whole joins (Point.start_in back)).congr ?_
    rw [search?_append whole joins inside, nothing, search?_prepend whole joins (Point.start_in back)]
    rfl
  | found here _ ih =>
    refine .found (m := Match.map _ _) ?_ (ih (search?_goes_on steady consumes inside here).1)
    rw [search?_append whole joins inside, here]
    rfl

/-- The matches in whole lines and more text are those in the lines, and then those in the text. -/
theorem matchesOf_append :
    r.matchesOf (front ++ back) = (r.matchesOf front).map (.map (.append back)) ++
      (r.matchesOf back).map (.map (.prepend front)) := by
  obtain ⟨steady, consumes, _⟩ := joins_iff.mp joins
  have first := matchesOf_successive steady consumes front
  have second := matchesOf_successive steady consumes back
  have both := first.append whole joins (Point.start_in front) second
  exact (matchesOf_successive steady consumes (front ++ back)).unique both

end Joining

section Line

variable {r : Regex} (joins : r.joins = true)
  (opens : ∀ {p q}, r.Takes p q → Assertion.holds .lineStart p = true)
  {line text : List Char} (isLine : Text.IsLine line text)

include joins opens isLine

/-- What is asked for at the beginning of a line is not found further on in the line. -/
theorem preferred?_of_reads {p : Point} {w : List Char} (reads : (Point.start text).Reads w p)
    (further : w ≠ []) : r.preferred? p = none := by
  obtain ⟨single, shape⟩ := isLine
  by_contra some
  obtain ⟨m, found⟩ := Option.ne_none_iff_exists'.mp some
  have takes : r.Takes p m.stop := outcomes_takes (List.mem_of_head? found)
  -- The only other beginning of a line is the one behind the line feed, where nothing is left.
  have before : w.getLast? = Option.some '\n' := by
    have begins := opens takes
    rw [Assertion.holds, Point.before_eq_getLast? reads] at begins
    rcases List.eq_nil_or_concat' w with rfl | ⟨v, c, rfl⟩
    · contradiction
    · simpa using begins
  obtain ⟨v, rfl⟩ := List.getLast?_eq_some_iff.mp before
  have whole : text = v ++ ['\n'] ++ p.rest := reads.rest_eq
  have shorter := takes.rest_lt (joins_iff.mp joins).2.1
  rcases shape with rfl | rfl
  · exact single (by simp [whole])
  · rcases List.eq_nil_or_concat' p.rest with none | ⟨u, c, last⟩
    · simp [none] at shorter
    · rw [last, ← List.append_assoc] at whole
      have same := (List.append_inj' whole rfl).1
      exact single (by simp [same])

theorem search?_of_reads {p : Point} {w : List Char} (reads : (Point.start text).Reads w p)
    (further : w ≠ []) : r.search? p = none := by
  rw [search?_eq (joins_iff.mp joins).1 ⟨w, reads⟩, List.findSome?_eq_none_iff]
  intro q listed
  obtain ⟨v, more⟩ := Point.mem_onward_iff.mp listed
  exact preferred?_of_reads joins opens isLine (reads.trans more) (by simp [further])

/-- What is asked for at the beginning of a line is found in the line once or not at all. -/
theorem matchesOf_line : r.matchesOf text = (r.preferred? (.start text)).toList := by
  obtain ⟨steady, consumes, _⟩ := joins_iff.mp joins
  have inside := Point.start_in text
  have first : r.search? (.start text) = r.preferred? (.start text) := by
    cases rest : (Point.start text).rest with
    | nil => exact search?_of_nil steady inside rest
    | cons c cs =>
      rw [search?_of_cons steady inside rest,
        search?_of_reads joins opens isLine (w := [c]) ⟨cs, rest, rfl⟩ (by simp), Option.or_none]
  refine (matchesOf_successive steady consumes text).unique ?_
  cases found : r.preferred? (.start text) with
  | none => exact .none (first.trans found)
  | some m =>
    obtain ⟨w, reads, some⟩ :=
      Takes.reads (r := r) (outcomes_takes (m := .ofPoint (.start text)) (List.mem_of_head? found))
    exact .found (first.trans found)
      (.none (search?_of_reads joins opens isLine reads (some consumes)))

end Line

theorem matchesOf_nil {r : Regex} (joins : r.joins = true) : r.matchesOf [] = [] := by
  obtain ⟨steady, consumes, _⟩ := joins_iff.mp joins
  rw [List.eq_nil_iff_forall_not_mem]
  intro m member
  obtain ⟨p, ⟨w, reads⟩, preferred⟩ := mem_matchesOf steady member
  have shorter := (outcomes_takes (List.mem_of_head? preferred)).rest_lt consumes
  have none : p.rest = [] := (List.append_eq_nil_iff.mp reads.rest_eq.symm).2
  simp [Match.ofPoint, none] at shorter

/-- What is found in no line is not found in lines one after another. -/
theorem matchesOf_lines {r : Regex} (joins : r.joins = true) {α : Type} {lines : List α}
    {chars : α → List Char} (single : ∀ a, '\n' ∉ chars a)
    (each : ∀ a text, Text.IsLine (chars a) text → r.matchesOf text = []) :
    r.matchesOf (['\n'].intercalate (lines.map chars)) = [] := by
  induction lines with
  | nil => exact matchesOf_nil joins
  | cons a lines ih =>
    cases lines with
    | nil => simpa using each a _ ⟨single a, .inl rfl⟩
    | cons b lines =>
      have cut : ['\n'].intercalate ((a :: b :: lines).map chars) =
          (chars a ++ ['\n']) ++ ['\n'].intercalate ((b :: lines).map chars) := by
        simp
      rw [cut, matchesOf_append (.inr ⟨_, rfl⟩) joins, each a _ ⟨single a, .inr rfl⟩, ih]
      rfl

end Regex

namespace Point

/-- The line on which a text goes on is told by the line feeds before. -/
theorem lineOf_size (w rest : List Char) :
    (LineIndex.ofText (w ++ rest)).lineOf (size w) = w.count '\n' + 1 := by
  refine LineIndex.lineOf_append (Nat.le_refl _) fun c _ _ => ?_
  have positive := c.utf8Size_pos
  omega

theorem lineOf_offset {text w : List Char} {p : Point} (reads : (start text).Reads w p) :
    (LineIndex.ofText text).lineOf p.offset = w.count '\n' + 1 := by
  have whole : text = w ++ p.rest := reads.rest_eq
  have offset : p.offset = size w := by simpa [start] using reads.offset_eq
  rw [offset, whole, lineOf_size]

theorem charsTo_prepend (front : List Char) (p q : Point) :
    (p.prepend front).charsTo (q.prepend front) = p.charsTo q := by
  rw [charsTo, charsTo, prepend, prepend, Nat.add_sub_add_left]

theorem charsTo_append {front : List Char} {p q : Point} (first : p.In front) (second : q.In front)
    (back : List Char) : (p.append back).charsTo (q.append back) = p.charsTo q := by
  obtain ⟨u, reads⟩ := first
  obtain ⟨v, further⟩ := second
  rcases Nat.le_total (size u) (size v) with ordered | reversed
  · obtain ⟨w, rfl⟩ := eq_append_of_size_le (reads.rest_eq.symm.trans further.rest_eq) ordered
    obtain ⟨o, before, behind⟩ := reads_append.mp further
    rw [before.unique reads] at behind
    rw [behind.charsTo_eq, (behind.append back).charsTo_eq]
  · -- Nothing stands between a point and one that is not behind it.
    have backward : q.offset - p.offset = 0 := by
      rw [reads.offset_eq, further.offset_eq]
      omega
    have backward' : (q.append back).offset - (p.append back).offset = 0 := backward
    rw [charsTo, charsTo, backward, backward']
    cases (p.append back).rest <;> cases p.rest <;> rfl

end Point

end Ripple
