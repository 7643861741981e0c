import Ripple.Proofs.Regex.Joining

/-!
What a search finds first. Where nothing is found before a point, the search goes on from the point;
if nothing more is found behind a match either, it is the only one. The texts that parts of an
expression lead along are put together like the parts.
-/

namespace Ripple.Regex

/-- From wherever the text can be read, the parts lead along it. -/
def Accepts (rs : List Regex) (w : List Char) : Prop :=
  ∀ p q : Point, p.Reads w q → (seqs rs).Takes p q

namespace Accepts

theorem append {rs ss : List Regex} {u v : List Char} (first : Accepts rs u)
    (second : Accepts ss v) : Accepts (rs ++ ss) (u ++ v) := by
  intro p q reads
  obtain ⟨o, readsU, readsV⟩ := Point.reads_append.mp reads
  exact takes_seqs_append.mpr ⟨o, first p o readsU, second o q readsV⟩

theorem chars (w : List Char) : Accepts (w.map .char) w :=
  fun _ _ reads => takes_chars.mpr reads

theorem run {s : CharSet} {min : Nat} {greedy : Bool} {w : List Char} (least : min ≤ w.length)
    (members : ∀ c ∈ w, s.mem c = true) : Accepts [.rep (.set s) min none greedy] w :=
  fun _ _ reads => takes_run.mpr ⟨w, least, members, reads⟩

theorem optional {r : Regex} {greedy : Bool} {w : List Char} (fits : w = [] ∨ Accepts [r] w) :
    Accepts [.rep r 0 (some 1) greedy] w := by
  intro p q reads
  rcases fits with rfl | fits
  · exact takes_optional.mpr (.inl reads)
  · exact takes_optional.mpr (.inr (fits p q reads))

theorem group {i : Nat} {r : Regex} {w : List Char} (fits : Accepts [r] w) :
    Accepts [.group i r] w := fits

end Accepts

theorem preferred?_eq_none {r : Regex} {p : Point} (closed : ∀ q, ¬ r.Takes p q) :
    r.preferred? p = none := by
  rw [preferred?, List.head?_eq_none_iff, List.eq_nil_iff_forall_not_mem]
  exact fun m member => closed m.stop (outcomes_takes member)

section First

variable {r : Regex} (steady : r.steady = true) {text : List Char}

include steady

theorem matchesOf_eq_nil (silent : ∀ p q, p.In text → ¬ r.Takes p q) : r.matchesOf text = [] := by
  apply List.eq_nil_iff_forall_not_mem.mpr
  intro m member
  obtain ⟨p, inside, preferred⟩ := mem_matchesOf steady member
  exact silent p m.stop inside (outcomes_takes (List.mem_of_head? preferred))

/-- A search passes over the points from which there is no way. -/
theorem search?_of_silent {p q : Point} {w : List Char} (inside : p.In text) (reads : p.Reads w q)
    (silent : ∀ u c v o, w = u ++ c :: v → p.Reads u o → r.preferred? o = none) :
    r.search? p = r.search? q := by
  induction w generalizing p with
  | nil => rw [Point.reads_nil.mp reads]
  | cons c w ih =>
    obtain ⟨cs, rest, more⟩ := reads
    have here : r.preferred? p = none := silent [] c w p rfl rfl
    rw [search?_of_cons steady inside rest, here, Option.none_or]
    refine ih (inside.behind rest) more fun u d v o cut first => ?_
    exact silent (c :: u) d v o (by rw [cut, List.cons_append]) ⟨cs, rest, first⟩

theorem search?_of_preferred {p : Point} (inside : p.In text) {m : Match}
    (found : r.preferred? p = some m) : r.search? p = some m := by
  cases rest : p.rest with
  | nil => rw [search?_of_nil steady inside rest, found]
  | cons c cs => rw [search?_of_cons steady inside rest, found, Option.some_or]

variable (consumes : r.nullable = false) {p : Point} {m : Match} (found : r.preferred? p = some m)

include consumes found

/-- The preferred way from a point is the first match if there is no way from an earlier point. -/
theorem exists_matchesOf_eq_cons {u : List Char} (reads : (Point.start text).Reads u p)
    (silent : ∀ v c t o q, u = v ++ c :: t → (Point.start text).Reads v o → ¬ r.Takes o q) :
    ∃ ms, r.matchesOf text = m :: ms ∧ r.Successive m.stop ms := by
  have first : r.search? (.start text) = some m := by
    rw [search?_of_silent steady (Point.start_in text) reads,
      search?_of_preferred steady ⟨u, reads⟩ found]
    exact fun v c t o cut before => preferred?_eq_none fun q => silent v c t o q cut before
  -- The list of matches begins with the one that the first search finds.
  cases shape : r.matchesOf text with
  | nil =>
    have none := matchesOf_successive steady consumes text
    rw [shape] at none
    cases none with
    | none nothing =>
      rw [nothing] at first
      contradiction
  | cons n ms =>
    have some := matchesOf_successive steady consumes text
    rw [shape] at some
    cases some with
    | found here rest =>
      rw [here, Option.some.injEq] at first
      subst first
      exact ⟨ms, rfl, rest⟩

/-- The preferred way from a point is the only match if there is no way from another point. -/
theorem matchesOf_eq_singleton (inside : p.In text)
    (only : ∀ o q, o.In text → r.Takes o q → o = p) : r.matchesOf text = [m] := by
  obtain ⟨u, reads⟩ := inside
  obtain ⟨ms, shape, rest⟩ := exists_matchesOf_eq_cons steady consumes found reads
    fun v c t o q cut before takes => by
      -- The points before are told from the point by what is read up to them.
      obtain rfl := only o q ⟨v, before⟩ takes
      have same := reads.chars_unique before
      simp [cut] at same
  have takes : r.Takes p m.stop := outcomes_takes (m := .ofPoint p) (List.mem_of_head? found)
  have within : m.stop.In text := preferred?_within ⟨u, reads⟩ found
  cases rest with
  | none => exact shape
  | @found _ n _ here _ =>
    -- A further match begins behind the first one, so at another point.
    rw [search?_eq steady within] at here
    obtain ⟨o, listed, begins⟩ := List.exists_of_findSome?_eq_some here
    obtain ⟨w, further⟩ := Point.mem_onward_iff.mp listed
    obtain rfl := only o n.stop (within.reads further) (outcomes_takes (List.mem_of_head? begins))
    have shorter := takes.rest_lt consumes
    rw [further.rest_eq, List.length_append] at shorter
    omega

end First

end Ripple.Regex
