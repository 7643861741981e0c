import Ripple.Proofs.Language.Naming

/-!
Names are taken literally. Whatever characters the name of a module has, the patterns for it are the
templates of the language with these characters in the place of the name: the name neither ends a
part of a template nor changes how the rest of it is read.
-/

namespace Ripple.Language

open Regex

theorem forall₂_of_mapM {α β ε : Type} {f : α → Except ε β} {xs : List α} {ys : List β}
    (mapped : xs.mapM f = .ok ys) : List.Forall₂ (fun x y => f x = .ok y) xs ys := by
  induction xs generalizing ys with
  | nil =>
    cases mapped
    exact .nil
  | cons x xs ih =>
    rw [List.mapM_cons] at mapped
    cases here : f x with
    | error e => simp [here, bind, Except.bind] at mapped
    | ok y =>
      cases rest : xs.mapM f with
      | error e => simp [here, rest, bind, Except.bind] at mapped
      | ok others =>
        obtain rfl : y :: others = ys := by
          simpa [here, rest, bind, Except.bind, pure, Except.pure] using mapped
        exact .cons here (ih rest)

theorem exists_of_forall₂ {α β : Type} {R : α → β → Prop} {xs : List α} {ys : List β}
    (related : List.Forall₂ R xs ys) : ∀ x ∈ xs, ∃ y ∈ ys, R x y := by
  induction related with
  | nil => simp
  | cons here _ ih =>
    intro x listed
    rcases List.mem_cons.mp listed with rfl | listed
    · exact ⟨_, List.mem_cons_self, here⟩
    · obtain ⟨y, later, holds⟩ := ih x listed
      exact ⟨y, List.mem_cons_of_mem _ later, holds⟩

/-- A pattern is a template with a name taken literally. Its text is read as the tree of the template
with the characters of the name in their place, and it matches where what the template has before the
name, the name itself and what the template has behind it are read one after another. -/
def TakesLiterally (name : String) (t : String) (p : Pattern) : Prop :=
  p.source = fill t (Pattern.escape name) ∧
  ∃ h : Holed, h.IsRead t ∧ Tree.parse p.source.toList = .ok (h.filled name.toList) ∧
    ∃ form, h.StandsFor form ∧
      ∀ text, p.matchesIn text = true ↔ FoundIn [form] name.toList text

theorem Shapes.takesLiterally {t : String} {form : Form} (shapes : Shapes t form)
    (steady : ∀ r ∈ form.1 ++ form.2, r.steady = true) {name : String} {p : Pattern}
    (compiled : Pattern.compile (fill t (Pattern.escape name)) = .ok p) :
    TakesLiterally name t p := by
  rcases shapes.fills name with ⟨names, accepted⟩ | ⟨refused, _⟩
  · obtain rfl := Except.ok.inj (compiled.symm.trans accepted)
    obtain ⟨h, isRead, standsFor, parsed⟩ := shapes
    refine ⟨rfl, h, isRead, parsed name, form, standsFor, fun text => ?_⟩
    exact form.matchesIn_filled_iff steady
  · rw [compiled] at refused
    cases refused

theorem Shaped.takesLiterally {l : Language} {forms : List Form} (shaped : l.Shaped forms)
    (steady : ∀ form ∈ forms, ∀ r ∈ form.1 ++ form.2, r.steady = true) {name : String}
    {patterns : List Pattern} (compiled : l.dependencyPatterns name = .ok patterns) :
    List.Forall₂ (TakesLiterally name) l.templates patterns := by
  rw [dependencyPatterns, compileTemplates] at compiled
  refine ((List.forall₂_and_left _ _).mpr
    ⟨exists_of_forall₂ shaped, forall₂_of_mapM compiled⟩).imp ?_
  rintro t p ⟨⟨form, listed, shapes⟩, accepted⟩
  exact shapes.takesLiterally (steady form listed) accepted

/-- The patterns for a module take its name literally, one pattern for each template. Only a name of
more than 100000 bytes can have no patterns, for their size. -/
theorem names_taken_literally {l : Language} (member : l ∈ LanguageTable.builtin.languages)
    (name : String) :
    (Point.size name.toList ≤ 100000 → l.dependencyPatterns name ≠ .error .tooBig) ∧
    (l.dependencyPatterns name ≠ .error .tooBig → ∃ patterns,
      l.dependencyPatterns name = .ok patterns ∧
      List.Forall₂ (TakesLiterally name) l.templates patterns) := by
  obtain ⟨forms, shaped, fine⟩ := builtin_shaped member
  constructor
  · intro short
    exact shaped.formed.not_tooBig (fun form listed => (fine form listed).2) short
  · intro fitting
    rcases shaped.formed.cases name with ⟨patterns, compiled, _⟩ | ⟨refused, _⟩
    · refine ⟨patterns, compiled, ?_⟩
      exact shaped.takesLiterally (fun form listed => (fine form listed).1) compiled
    · exact absurd refused fitting

/-- The name of this module holds signs of patterns, the place of a name and a wide character. -/
theorem names_taken_literally_signs :
    python ∈ LanguageTable.builtin.languages ∧
    ∃ patterns, python.dependencyPatterns "(é|.)*\x7bname\x7d\\b$" = .ok patterns ∧
      List.Forall₂ (TakesLiterally "(é|.)*\x7bname\x7d\\b$") python.templates patterns := by
  have member : python ∈ LanguageTable.builtin.languages := List.mem_cons_self
  obtain ⟨fits, taken⟩ := names_taken_literally member "(é|.)*\x7bname\x7d\\b$"
  exact ⟨member, taken (fits (by decide))⟩

end Ripple.Language
