import Ripple.Unicode.Lowercase

/-!
Words in a text in lower case. The lower-case form of a character may depend on what is around it,
and it may be longer than the character; but a letter of ASCII comes from a letter of ASCII, save for
two that only a single character beyond ASCII gives: `k`, and `i` with a dot behind it. A word
without the first that does not end with the second is found in a text in lower case where it is
found in the text with nothing but its ASCII letters lowered, which goes letter by letter.
-/

namespace Ripple.Unicode.Lowercase

open Folding

/-- A row leads from beyond ASCII to characters beyond ASCII, or to the one letter `k`. -/
def leadsOut (r : Row) : Bool :=
  128 ≤ r.first && (r.target + (r.last - r.first) < 0xd800 ||
    0xdfff < r.target && r.target + (r.last - r.first) < 0x110000) &&
      (128 ≤ r.target || r.target = 107 && r.first = r.last)

theorem rows_leadOut : rows.all leadsOut = true := by decide +kernel

theorem forward?_leadsOut {r : Row} (out : leadsOut r = true) {x y : Nat}
    (leads : r.forward? x = some y) : (Char.ofNat y).toNat = y ∧ (128 ≤ y ∨ y = 107) := by
  simp only [leadsOut, Bool.and_eq_true, Bool.or_eq_true, decide_eq_true_eq] at out
  rw [Row.forward?] at leads
  split at leads
  next inside =>
    obtain rfl := Option.some.inj leads
    have valid : (r.target + (x - r.first)).isValidChar := by
      unfold Nat.isValidChar
      omega
    refine ⟨?_, by omega⟩
    rw [Char.ofNat, dif_pos valid]
    rfl
  next => cases leads

/-- What stands for a character in lower case. -/
inductive StandsFor : Char → List Char → Prop
  | ascii {c : Char} : c.toNat < 128 → StandsFor c [c.toLower]
  | beyond {c d : Char} : 128 ≤ c.toNat → 128 ≤ d.toNat ∨ d = 'k' → StandsFor c [d]
  | dotted {c : Char} : 128 ≤ c.toNat → StandsFor c ['i', '\u0307']

theorem ofChar_standsFor (c : Char) : StandsFor c (ofChar c) := by
  rw [ofChar]
  split
  next ascii => exact .ascii ascii
  next wide =>
    have wide : 128 ≤ c.toNat := by omega
    split
    next => exact .dotted wide
    next =>
      apply StandsFor.beyond wide
      cases found : rows.findSome? (·.forward? c.toNat) with
      | none =>
        left
        rwa [Option.getD_none, Char.ofNat_toNat]
      | some y =>
        obtain ⟨r, listed, leads⟩ := List.exists_of_findSome?_eq_some found
        obtain ⟨same, out⟩ := forward?_leadsOut (List.all_eq_true.mp rows_leadOut r listed) leads
        rw [Option.getD_some, same]
        exact out.imp_right fun letter => by rw [letter]

/-- A text in lower case, piece by piece. -/
inductive Spells : List Char → List Char → Prop
  | nil : Spells [] []
  | cons {c : Char} {piece cs ds : List Char} :
      StandsFor c piece → Spells cs ds → Spells (c :: cs) (piece ++ ds)

theorem behind_spells (before cs : List Char) : Spells cs (behind before cs) := by
  induction cs generalizing before with
  | nil => exact .nil
  | cons c cs ih =>
    rw [behind]
    refine .cons ?_ (ih (c :: before))
    split
    next sigma =>
      -- Either form of the sigma lies beyond ASCII, wherever it stands.
      refine .beyond (sigma ▸ by decide) (.inl ?_)
      rw [ofSigma]
      split <;> decide
    next => exact ofChar_standsFor c

/-- A word that is told letter by letter in lower case. -/
structure IsPlain (word : List Char) : Prop where
  letters : ∀ c ∈ word, c.toNat < 128 ∧ c ≠ 'k'
  last : word.getLast? ≠ some 'i'

theorem IsPlain.tail {a : Char} {word : List Char} (plain : IsPlain (a :: word)) : IsPlain word where
  letters c member := plain.letters c (List.mem_cons_of_mem a member)
  last := by
    intro ends
    apply plain.last
    rw [List.getLast?_cons, ends, Option.getD_some]

theorem IsPlain.ne_of_beyond {a : Char} {word : List Char} (plain : IsPlain (a :: word)) {d : Char}
    (beyond : 128 ≤ d.toNat ∨ d = 'k') : a ≠ d := by
  rintro rfl
  obtain ⟨ascii, other⟩ := plain.letters a List.mem_cons_self
  rcases beyond with wide | same
  · omega
  · exact other same

theorem toLower_of_beyond {c : Char} (wide : 128 ≤ c.toNat) : c.toLower = c := by
  apply dif_neg
  rintro ⟨_, upper⟩
  have last : c.toNat ≤ 90 := upper
  omega

/-- A plain word begins a text in lower case, at the beginning of a piece, if it begins the text with
lowered letters. -/
theorem prefix_spells_iff {word cs ds : List Char} (plain : IsPlain word) (spells : Spells cs ds) :
    word <+: ds ↔ word <+: cs.map Char.toLower := by
  induction word generalizing cs ds with
  | nil => simp
  | cons a word ih =>
    cases spells with
    | nil => simp
    | @cons c piece cs ds stands rest =>
      rw [List.map_cons]
      cases stands with
      | ascii =>
        rw [List.singleton_append, List.cons_prefix_cons, List.cons_prefix_cons, ih plain.tail rest]
      | beyond wide beyond =>
        rw [List.singleton_append, List.cons_prefix_cons, List.cons_prefix_cons, toLower_of_beyond wide]
        have other := plain.ne_of_beyond beyond
        have other' := plain.ne_of_beyond (.inl wide)
        simp [other, other']
      | dotted wide =>
        have other := plain.ne_of_beyond (.inl wide)
        rw [List.cons_append, List.cons_prefix_cons, List.cons_prefix_cons, toLower_of_beyond wide]
        refine iff_of_false ?_ fun same => other same.1
        rintro ⟨rfl, more⟩
        -- The word goes on behind its `i`, but the dot is no letter of it.
        cases word with
        | nil => exact plain.last rfl
        | cons b word =>
          obtain ⟨same, _⟩ := List.cons_prefix_cons.mp more
          exact plain.tail.ne_of_beyond (.inl (by decide)) same

theorem infix_spells_iff {word cs ds : List Char} (plain : IsPlain word) (some : word ≠ [])
    (spells : Spells cs ds) : word <:+: ds ↔ word <:+: cs.map Char.toLower := by
  induction spells with
  | nil => rfl
  | @cons c piece cs ds stands rest ih =>
    have here := prefix_spells_iff plain (.cons stands rest)
    rw [List.map_cons] at here ⊢
    rw [List.infix_cons_iff, ← here, ← ih]
    cases stands with
    | ascii => rw [List.singleton_append, List.infix_cons_iff]
    | beyond => rw [List.singleton_append, List.infix_cons_iff]
    | dotted =>
      rw [List.cons_append, List.singleton_append, List.infix_cons_iff, List.infix_cons_iff]
      -- No plain word begins with the dot.
      have none : ¬ word <+: '\u0307' :: ds := by
        obtain ⟨a, word, rfl⟩ := List.exists_cons_of_ne_nil some
        intro begins
        exact plain.ne_of_beyond (.inl (by decide)) (List.cons_prefix_cons.mp begins).1
      simp [none]

end Lowercase

open Lowercase

/-- A plain word is part of a text in lower case exactly if it is part of the text with its ASCII
letters lowered. -/
theorem infix_lowercase_iff {word : List Char} (plain : IsPlain word) (some : word ≠ [])
    (text : List Char) : word <:+: lowercase text ↔ word <:+: text.map Char.toLower :=
  infix_spells_iff plain some (behind_spells [] text)

/-- A longer text keeps the plain words of its parts. -/
theorem infix_lowercase_mono {word : List Char} (plain : IsPlain word) (some : word ≠ [])
    {part whole : List Char} (inside : part <:+: whole) (found : word <:+: lowercase part) :
    word <:+: lowercase whole := by
  rw [infix_lowercase_iff plain some] at found ⊢
  exact found.trans (inside.map Char.toLower)

end Ripple.Unicode
