import Mathlib.Data.List.Basic
import Ripple.Regex.Basic

/-!
Reading from point to point. The characters between two points of a text determine each of the
points from the other, and the points of one text are told apart by their offsets.
-/

namespace Ripple.Point

/-- The characters `w` lead from one point to another. -/
def Reads : Point → List Char → Point → Prop
  | p, [], q => q = p
  | p, c :: w, q => ∃ cs, p.rest = c :: cs ∧ Reads (p.behind c cs) w q

/-- The number of bytes of some characters. -/
def size : List Char → Nat
  | [] => 0
  | c :: w => c.utf8Size + size w

@[simp] theorem size_nil : size [] = 0 := rfl

@[simp] theorem size_cons (c : Char) (w : List Char) : size (c :: w) = c.utf8Size + size w := rfl

@[simp] theorem reads_nil {p q : Point} : p.Reads [] q ↔ q = p := .rfl

theorem reads_cons {p q : Point} {c : Char} {w : List Char} :
    p.Reads (c :: w) q ↔ ∃ cs, p.rest = c :: cs ∧ (p.behind c cs).Reads w q := .rfl

theorem reads_append {p q : Point} {u v : List Char} :
    p.Reads (u ++ v) q ↔ ∃ o, p.Reads u o ∧ o.Reads v q := by
  induction u generalizing p with
  | nil => simp
  | cons c u ih =>
    simp only [List.cons_append, reads_cons, ih]
    constructor
    · rintro ⟨cs, rest, o, first, second⟩
      exact ⟨o, ⟨cs, rest, first⟩, second⟩
    · rintro ⟨o, ⟨cs, rest, first⟩, second⟩
      exact ⟨cs, rest, o, first, second⟩

/-- The first character is read before the others. -/
theorem Reads.uncons {p q : Point} {c : Char} {w : List Char} (reads : p.Reads (c :: w) q) :
    ∃ o, p.Reads [c] o ∧ o.Reads w q := by
  obtain ⟨cs, rest, reads⟩ := reads
  exact ⟨p.behind c cs, ⟨cs, rest, rfl⟩, reads⟩

theorem Reads.trans {p o q : Point} {u v : List Char} (first : p.Reads u o) (second : o.Reads v q) :
    p.Reads (u ++ v) q :=
  reads_append.mpr ⟨o, first, second⟩

theorem Reads.rest_eq {p q : Point} {w : List Char} (reads : p.Reads w q) :
    p.rest = w ++ q.rest := by
  induction w generalizing p with
  | nil =>
    cases reads
    rfl
  | cons c w ih =>
    obtain ⟨cs, rest, reads⟩ := reads
    rw [rest, List.cons_append, ← ih reads, behind]

theorem Reads.offset_eq {p q : Point} {w : List Char} (reads : p.Reads w q) :
    q.offset = p.offset + size w := by
  induction w generalizing p with
  | nil =>
    cases reads
    rfl
  | cons c w ih =>
    obtain ⟨cs, rest, reads⟩ := reads
    rw [ih reads, size_cons, ← Nat.add_assoc]
    rfl

theorem Reads.unique {p q r : Point} {w : List Char} (first : p.Reads w q) (second : p.Reads w r) :
    q = r := by
  induction w generalizing p with
  | nil => rw [reads_nil.mp first, reads_nil.mp second]
  | cons c w ih =>
    obtain ⟨cs, rest, first⟩ := first
    obtain ⟨ds, rest', second⟩ := second
    obtain rfl : cs = ds := List.tail_eq_of_cons_eq (rest.symm.trans rest')
    exact ih first second

/-- Whatever a text begins with behind a point can be read from there. -/
theorem exists_reads {p : Point} {w rest : List Char} (starts : p.rest = w ++ rest) :
    ∃ q, p.Reads w q ∧ q.rest = rest := by
  induction w generalizing p with
  | nil => exact ⟨p, rfl, starts⟩
  | cons c w ih =>
    obtain ⟨q, reads, left⟩ := ih (p := p.behind c (w ++ rest)) rfl
    exact ⟨q, ⟨w ++ rest, starts, reads⟩, left⟩

theorem Reads.before_eq {p q : Point} {w : List Char} {c : Char} (reads : p.Reads (w ++ [c]) q) :
    q.before = some c := by
  obtain ⟨o, _, last⟩ := reads_append.mp reads
  obtain ⟨cs, _, rfl⟩ := last
  rfl

theorem before_eq_getLast? {text w : List Char} {p : Point} (reads : (start text).Reads w p) :
    p.before = w.getLast? := by
  rcases List.eq_nil_or_concat' w with rfl | ⟨u, c, rfl⟩
  · rw [reads_nil.mp reads]
    rfl
  · rw [reads.before_eq, List.getLast?_concat]

theorem step?_eq_some_iff {p q : Point} {test : Char → Bool} :
    p.step? test = some q ↔ ∃ c, test c = true ∧ p.Reads [c] q := by
  rw [step?]
  constructor
  · intro stepped
    split at stepped
    next c cs rest =>
      split at stepped
      next passes => exact ⟨c, passes, cs, rest, (Option.some.inj stepped).symm⟩
      next => contradiction
    next => contradiction
  · rintro ⟨c, passes, cs, rest, rfl⟩
    simp [rest, passes]

theorem size_eq_zero {w : List Char} (zero : size w = 0) : w = [] := by
  cases w with
  | nil => rfl
  | cons c w =>
    have := c.utf8Size_pos
    rw [size_cons] at zero
    omega

theorem takeBytes_append (w rest taken : List Char) :
    takeBytes (w ++ rest) (size w) taken = w.reverse ++ taken := by
  induction w generalizing taken with
  | nil => cases rest <;> simp [takeBytes]
  | cons c w ih =>
    have positive := c.utf8Size_pos
    have nonzero : c.utf8Size + size w ≠ 0 := by omega
    simp only [List.cons_append, size_cons, takeBytes, nonzero, if_false, Nat.add_sub_cancel_left,
      ih, List.reverse_cons, List.append_assoc, List.nil_append]

theorem Reads.charsTo_eq {p q : Point} {w : List Char} (reads : p.Reads w q) :
    p.charsTo q = w := by
  rw [charsTo, reads.offset_eq, Nat.add_sub_cancel_left, reads.rest_eq, takeBytes_append]
  simp

theorem Reads.chars_unique {p q : Point} {u v : List Char} (first : p.Reads u q)
    (second : p.Reads v q) : u = v :=
  first.charsTo_eq.symm.trans second.charsTo_eq

/-- Of two beginnings of a text, the one of fewer bytes is a beginning of the other. -/
theorem eq_append_of_size_le {u v rest rest' : List Char} (same : u ++ rest = v ++ rest')
    (fewer : size u ≤ size v) : ∃ w, v = u ++ w := by
  induction u generalizing v with
  | nil => exact ⟨v, rfl⟩
  | cons c u ih =>
    cases v with
    | nil =>
      have := c.utf8Size_pos
      rw [size_cons, size_nil] at fewer
      omega
    | cons d v =>
      simp only [List.cons_append, List.cons.injEq] at same
      obtain ⟨rfl, same⟩ := same
      simp only [size_cons, Nat.add_le_add_iff_left] at fewer
      obtain ⟨w, rfl⟩ := ih same fewer
      exact ⟨w, rfl⟩

theorem size_append (u v : List Char) : size (u ++ v) = size u + size v := by
  induction u with
  | nil => simp
  | cons c u ih => simp only [List.cons_append, size_cons, ih, Nat.add_assoc]

/-- The point lies in the text. -/
def In (text : List Char) (p : Point) : Prop := ∃ w, (start text).Reads w p

theorem start_in (text : List Char) : (start text).In text := ⟨[], rfl⟩

theorem In.reads {text w : List Char} {p q : Point} (inside : p.In text) (reads : p.Reads w q) :
    q.In text := by
  obtain ⟨u, first⟩ := inside
  exact ⟨u ++ w, first.trans reads⟩

theorem In.eq_of_offset {text : List Char} {p q : Point} (inside : p.In text) (inside' : q.In text)
    (same : p.offset = q.offset) : p = q := by
  obtain ⟨u, first⟩ := inside
  obtain ⟨v, second⟩ := inside'
  have rest : u ++ p.rest = v ++ q.rest := first.rest_eq.symm.trans second.rest_eq
  have sizes : size u = size v := by
    have := first.offset_eq
    have := second.offset_eq
    omega
  obtain ⟨w, rfl⟩ := eq_append_of_size_le rest (Nat.le_of_eq sizes)
  have empty : w = [] := size_eq_zero (by rw [size_append] at sizes; omega)
  rw [empty, List.append_nil] at second
  exact first.unique second

/-- Single characters lead from different points of a text to different points. -/
theorem In.eq_of_reads_singleton {text : List Char} {p p' q q' : Point} {c c' : Char}
    (inside : p.In text) (inside' : p'.In text) (reads : p.Reads [c] q) (reads' : p'.Reads [c'] q')
    (same : q.offset = q'.offset) : p = p' := by
  obtain rfl := (inside.reads reads).eq_of_offset (inside'.reads reads') same
  obtain ⟨u, first⟩ := inside
  obtain ⟨v, second⟩ := inside'
  have longer := first.trans reads
  have longer' := second.trans reads'
  have whole : (u ++ [c]) ++ q.rest = (v ++ [c']) ++ q.rest :=
    longer.rest_eq.symm.trans longer'.rest_eq
  obtain rfl : u = v := (List.append_inj' (List.append_cancel_right whole) rfl).1
  exact first.unique second

end Ripple.Point
