import Ripple.Proofs.Language.Reading

/-!
Paths of use declarations. What such a declaration is found to import is a path, and each of the
path's components that is a word is found there by the form for use declarations. The name of a crate
that is declared on its own is found by no form.
-/

namespace Ripple

namespace Text

/-- Removed from the end of a text is nothing, or what begins as the removed part does. -/
theorem eq_append_stripSuffixes (part : List Char) (bound : Nat) (cs : List Char) :
    ∃ tail, cs = stripSuffixes part bound cs ++ tail ∧ ∀ c ∈ tail.head?, c ∈ part.head? := by
  induction bound generalizing cs with
  | zero => exact ⟨[], by simp [stripSuffixes], by simp⟩
  | succ bound ih =>
    rw [stripSuffixes]
    split
    next ends =>
      simp only [Bool.and_eq_true, List.isSuffixOf_iff_suffix] at ends
      obtain ⟨init, rfl⟩ := ends.2
      have kept : (init ++ part).take ((init ++ part).length - part.length) = init := by simp
      obtain ⟨tail, whole, begins⟩ := ih init
      -- What is removed later stands before the part, and begins as the part does.
      refine ⟨tail ++ part, by rw [kept, ← List.append_assoc, ← whole], ?_⟩
      cases tail with
      | nil => simp
      | cons d tail => simpa using begins
    next => exact ⟨[], by simp, by simp⟩

end Text

namespace Language

open Regex Language.Part

/-- A run that is captured at the end of a match can be no longer. -/
theorem run_of_match {r : Regex} {front : List Regex} {set : CharSet}
    (shape : r = seqs (front ++ group 1 (several set) :: []))
    (steady : (seqs (front ++ group 1 (several set) :: [])).steady = true)
    {text : List Char} {m : Match} {s e : Point} (found : m ∈ r.matchesOf text)
    (captured : m.group? 1 = some (s, e)) :
    ∃ p w, p.In text ∧ (seqs front).Takes p s ∧ w ≠ [] ∧ (∀ c ∈ w, set.mem c = true) ∧
      s.Reads w e ∧ ∀ c ∈ e.rest.head?, set.mem c = false := by
  obtain ⟨p, a, b, inside, first, second, rfl, rfl⟩ := picks_of_match shape ⟨steady, rfl⟩ found captured
  obtain ⟨w, nonempty, members, reads, ends⟩ := picks_run second
  exact ⟨p, w, inside, first, nonempty, members, reads, ends⟩

namespace Rust

/-- The components of a path, between the separators. -/
def components : List Char → List (List Char)
  | [] => [[]]
  | ':' :: ':' :: cs => [] :: components cs
  | c :: cs => (components cs).modifyHead (c :: ·)

theorem components_spec (path : List Char) :
    ∃ first others, components path = first :: others ∧
      (∃ v, path = first ++ v ∧ ∀ c ∈ v.head?, c = ':') ∧
      ∀ n ∈ others, ∃ u v, path = u ++ ':' :: (n ++ v) ∧ ∀ c ∈ v.head?, c = ':' := by
  -- The first component is told apart, as another character may still come before it.
  fun_induction components path with
  | case1 => exact ⟨[], [], rfl, ⟨[], rfl, by simp⟩, by simp⟩
  | case2 cs ih =>
    obtain ⟨first, others, pieces, ⟨v, whole, behind⟩, later⟩ := ih
    refine ⟨[], first :: others, by rw [pieces], ⟨_, rfl, by simp⟩, ?_⟩
    intro n member
    rcases List.mem_cons.mp member with rfl | member
    · exact ⟨[':'], v, by simp [← whole], behind⟩
    · obtain ⟨u, v, whole, behind⟩ := later n member
      exact ⟨':' :: ':' :: u, v, by simp [← whole], behind⟩
  | case3 c cs _ ih =>
    obtain ⟨first, others, pieces, ⟨v, whole, behind⟩, later⟩ := ih
    refine ⟨c :: first, others, by rw [pieces]; rfl, ⟨v, by simp [← whole], behind⟩, ?_⟩
    intro n member
    obtain ⟨u, v, whole, behind⟩ := later n member
    exact ⟨c :: u, v, by simp [← whole], behind⟩

/-- Next to a component stands nothing but a separator. -/
theorem eq_of_mem_components {path n : List Char} (member : n ∈ components path) :
    ∃ u v, path = u ++ (n ++ v) ∧ (∀ c ∈ u.getLast?, c = ':') ∧ ∀ c ∈ v.head?, c = ':' := by
  obtain ⟨first, others, pieces, ⟨v, whole, behind⟩, later⟩ := components_spec path
  rw [pieces] at member
  rcases List.mem_cons.mp member with rfl | member
  · exact ⟨[], v, whole, by simp, behind⟩
  · obtain ⟨u, v, whole, behind⟩ := later n member
    exact ⟨u ++ [':'], v, by simp [whole], by simp, behind⟩

/-- A line of a text declares a crate. -/
def DeclaresCrate (name text : List Char) : Prop :=
  ∃ before pad gap gap' behind,
    text = before ++ (pad ++ ("extern".toList ++ (gap ++ ("crate".toList ++ (gap' ++
      (name ++ behind)))))) ∧
    (before = [] ∨ ∃ lines, before = lines ++ ['\n']) ∧ gap ≠ [] ∧ gap' ≠ [] ∧
    (∀ c ∈ pad ++ (gap ++ gap'), c = ' ' ∨ c = '\t') ∧
    ∀ c ∈ behind.head?, Unicode.isWord c = false

theorem eq_append_of_mem_modules {w path : List Char}
    (solid : ∀ c ∈ w, Unicode.isSpace c = false) (member : path ∈ ImportReading.path.modules w) :
    ∃ dangling, w = path ++ dangling ∧ ∀ c ∈ dangling.head?, c = ':' := by
  have trimmed : Text.trim w = w := Text.trim_eq_self
    (fun c here => solid c (List.mem_of_mem_head? here))
    (fun c here => solid c (List.mem_of_mem_getLast? here))
  rw [ImportReading.modules, trimmed, List.mem_singleton] at member
  obtain ⟨dangling, whole, begins⟩ := Text.eq_append_stripSuffixes [':', ':'] w.length w
  exact ⟨dangling, member ▸ whole, fun c here => by simpa [eq_comm] using begins c here⟩

/-- The beginning of a use declaration. -/
def useFront : List Regex := indent ++ [visibility] ++ letters "use" ++ [several blank]

def pathChar : CharSet := .unions [.word, .single ':']

theorem usePattern_regex : usePattern.regex =
    seqs ((useFront ++ [maybe (seqs (letters "::"))]) ++ group 1 (several pathChar) :: []) := by
  rw [usePattern, Pattern.ofText_eq rfl]
  rfl

def crateFront : List Regex :=
  indent ++ (letters "extern" ++ [several blank] ++ letters "crate" ++ [several blank])

theorem cratePattern_regex :
    cratePattern.regex = seqs (crateFront ++ group 1 (several .word) :: []) := by
  rw [cratePattern, Pattern.ofText_eq rfl]
  rfl

theorem pathChar_mem_iff {c : Char} :
    pathChar.mem c = true ↔ Unicode.isWord c = true ∨ c = ':' := by
  simp only [pathChar, CharSet.mem_unions, List.mem_cons, List.not_mem_nil, or_false,
    exists_eq_or_imp, exists_eq_left, CharSet.mem_single, CharSet.mem]

/-- A word between separators is found by the form for use declarations: before it may stand the
path's root and any components, and behind it no word goes on. -/
theorem foundIn_of_component {text u n : List Char} {p k s a b : Point} (inside : p.In text)
    (front : (seqs useFront).Takes p k) (root : (maybe (seqs (letters "::"))).Takes k s)
    (readsU : s.Reads u a) (members : ∀ c ∈ u, pathChar.mem c = true)
    (left : ∀ c ∈ u.getLast?, c = ':') (readsN : a.Reads n b) (some : n ≠ [])
    (word : ∀ c ∈ n, Unicode.isWord c = true) (ends : ∀ c ∈ b.rest.head?, Unicode.isWord c = false) :
    FoundIn forms n text := by
  obtain ⟨j, opening, blanks⟩ := takes_seqs_append.mp front
  obtain ⟨gap, someGap, blank, readsGap⟩ := takes_several blanks
  obtain ⟨colons, sep, readsColons⟩ : ∃ w, (∀ c ∈ w, c = ':') ∧ k.Reads w s := by
    rcases takes_optional.mp root with rfl | colons
    · exact ⟨[], by simp, rfl⟩
    · exact ⟨[':', ':'], by simp, takes_chars.mp colons⟩
  -- Before the word stands the last component's separator, the root or the blank of the keyword.
  have apart : ∀ c ∈ (gap ++ (colons ++ u)).getLast?, Unicode.isWord c = false := by
    intro c last
    rcases List.eq_nil_or_concat' u with rfl | ⟨u, d, rfl⟩
    · rcases List.mem_append.mp (List.mem_of_mem_getLast? last) with here | here
      · rcases blank_mem_iff.mp (blank c here) with rfl | rfl <;> decide
      · rw [sep c (by simpa using here)]
        decide
    · obtain rfl : d = c := by simpa [← List.append_assoc] using last
      rw [left d (by simp)]
      decide
  have begins : edge.Takes a a := by
    obtain ⟨d, n, rfl⟩ := List.exists_cons_of_ne_nil some
    apply takes_edge_before (by simp [someGap]) apart (readsGap.trans (readsColons.trans readsU))
    · exact readsN.rest_eq
    · exact word d List.mem_cons_self
  refine ⟨_, List.mem_cons_self, p, a, b, b, inside, ?_, readsN, takes_edge some word readsN ends⟩
  refine takes_seqs_append.mpr ⟨j, opening, k, blanks, a, ?_, begins⟩
  -- What the form passes over to the word does not leave the declaration.
  refine takes_run.mpr ⟨colons ++ u, Nat.zero_le _, ?_, readsColons.trans readsU⟩
  intro c listed
  have other : c ≠ ';' := by
    rintro rfl
    rcases List.mem_append.mp listed with listed | listed
    · exact absurd (sep _ listed) (by decide)
    · exact absurd (members _ listed) (by decide)
  simpa [CharSet.mem, Bool.eq_false_iff, CharSet.mem_single] using other

theorem foundIn_of_use {text : List Char} {hit : Match} {s e : Point} {path n : List Char}
    (found : hit ∈ usePattern.matchesOf text) (captured : hit.group? 1 = some (s, e))
    (member : path ∈ ImportReading.path.modules (s.charsTo e)) (component : n ∈ components path)
    (some : n ≠ []) (word : ∀ c ∈ n, Unicode.isWord c = true) : FoundIn forms n text := by
  obtain ⟨p, w, inside, first, _, members, reads, ends⟩ :=
    run_of_match usePattern_regex (by decide) found captured
  obtain ⟨k, front, root⟩ := takes_seqs_append.mp first
  have solid : ∀ c ∈ w, Unicode.isSpace c = false := by
    intro c listed
    rcases pathChar_mem_iff.mp (members c listed) with word | rfl
    · exact Unicode.isSpace_eq_false_of_isWord word
    · rfl
  rw [reads.charsTo_eq] at member
  obtain ⟨dangling, rfl, strays⟩ := eq_append_of_mem_modules solid member
  obtain ⟨u, v, rfl, left, right⟩ := eq_of_mem_components component
  simp only [List.append_assoc] at reads members
  obtain ⟨a, readsU, tail⟩ := Point.reads_append.mp reads
  obtain ⟨b, readsN, tail⟩ := Point.reads_append.mp tail
  refine foundIn_of_component inside front root readsU (fun c listed => members c (by simp [listed]))
    left readsN some word ?_
  -- Behind the component stands a separator, or what ends the path.
  rw [tail.rest_eq]
  intro c next
  have outside : c = ':' ∨ pathChar.mem c = false := by
    cases v with
    | cons d v => exact .inl (right c next)
    | nil =>
      cases dangling with
      | cons d dangling => exact .inl (strays c next)
      | nil => exact .inr (ends c next)
  rcases outside with rfl | outside
  · decide
  · rw [Bool.eq_false_iff] at outside ⊢
    exact fun word => outside (pathChar_mem_iff.mpr (.inl word))

theorem declaresCrate_of_match {text : List Char} {hit : Match} {s e : Point} {path : List Char}
    (found : hit ∈ cratePattern.matchesOf text) (captured : hit.group? 1 = some (s, e))
    (member : path ∈ ImportReading.path.modules (s.charsTo e)) : DeclaresCrate path text := by
  obtain ⟨p, w, ⟨before, start⟩, first, _, word, reads, ends⟩ :=
    run_of_match cratePattern_regex (by decide) found captured
  rw [reads.charsTo_eq] at member
  obtain ⟨dangling, rfl, strays⟩ := eq_append_of_mem_modules
    (fun c listed => Unicode.isSpace_eq_false_of_isWord (word c listed)) member
  -- A crate's name is a word, so nothing dangles.
  obtain rfl : dangling = [] := by
    cases dangling with
    | nil => rfl
    | cons c dangling =>
      obtain rfl := strays c rfl
      exact absurd (word ':' (by simp)) (by decide)
  rw [List.append_nil] at reads
  obtain ⟨begins, pad, o, blanks, readsPad, declares⟩ := (takes_indent_iff start).mp first
  obtain ⟨b, declares, blanks'⟩ := takes_seqs_append.mp declares
  obtain ⟨c, declares, second⟩ := takes_seqs_append.mp declares
  obtain ⟨d, first, blanks''⟩ := takes_seqs_append.mp declares
  obtain ⟨gap, some, blank, readsGap⟩ := takes_several blanks''
  obtain ⟨gap', some', blank', readsGap'⟩ := takes_several blanks'
  have whole := (start.trans (readsPad.trans ((takes_chars.mp first).trans (readsGap.trans
    ((takes_chars.mp second).trans (readsGap'.trans reads)))))).rest_eq
  refine ⟨before, pad, gap, gap', e.rest, by simpa [Point.start] using whole, begins, some, some', ?_,
    ends⟩
  intro c listed
  rw [← blank_mem_iff]
  simp only [List.mem_append] at listed
  rcases listed with listed | listed | listed
  · exact blanks c listed
  · exact blank c listed
  · exact blank' c listed

/-- Every component of an imported path that is a word is confirmed by the patterns for it, unless
the path is a crate declared on its own. -/
theorem path_components_confirmed {source name : String} {i : Import}
    (imported : i ∈ rust.imports source) (component : name.toList ∈ components i.name.toList)
    (some : name ≠ "") (word : ∀ c ∈ name.toList, Unicode.isWord c = true)
    (used : ¬ DeclaresCrate i.name.toList source.toList) : rust.Judges name source True := by
  have nonempty : name.toList ≠ [] := by simpa using some
  apply formed.judges (by decide)
  rw [iff_true]
  obtain ⟨rule, listed, named⟩ := mem_imports imported
  obtain ⟨hit, found, s, e, captured, member⟩ := mem_modules named
  have rules : rule ∈ [⟨usePattern, .path⟩, ⟨cratePattern, .path⟩, ⟨useBlockPattern, .extent⟩] := listed
  simp only [List.mem_cons, List.not_mem_nil, or_false] at rules
  rcases rules with rfl | rfl | rfl
  · exact foundIn_of_use found captured member component nonempty word
  · exact absurd (declaresCrate_of_match found captured member) used
  · exact absurd member List.not_mem_nil

theorem path_components_confirmed_auth :
    ⟨"crate::auth", .internal⟩ ∈ rust.imports "pub use crate::auth::\x7blogin\x7d;" ∧
      "auth".toList ∈ components "crate::auth".toList ∧
      rust.Judges "auth" "pub use crate::auth::\x7blogin\x7d;" True := by
  have imported : ⟨"crate::auth", .internal⟩ ∈
      rust.imports "pub use crate::auth::\x7blogin\x7d;" := by
    refine List.mem_append_left _ (List.mem_map.mpr ⟨"crate::auth", Text.mem_ascending.mpr ?_, ?_⟩)
    · decide +kernel
    · decide
  have component : "auth".toList ∈ components "crate::auth".toList := by decide
  refine ⟨imported, component,
    path_components_confirmed imported component (by decide) (List.all_eq_true.mp (by decide)) ?_⟩
  rintro ⟨before, pad, gap, gap', behind, whole, _⟩
  have letter : 'x' ∈ "pub use crate::auth::\x7blogin\x7d;".toList := by
    rw [whole]
    simp
  exact absurd letter (by decide)

/-- A crate declared on its own is imported, and no pattern for it matches. -/
theorem declared_crate_unconfirmed :
    ⟨"auth", .external⟩ ∈ rust.imports "extern crate auth;" ∧
      "auth".toList ∈ components "auth".toList ∧
      ∃ patterns, rust.dependencyPatterns "auth" = .ok patterns ∧
        ¬ ∃ pattern ∈ patterns, pattern.matchesIn "extern crate auth;".toList = true := by
  refine ⟨?_, by decide, ?_⟩
  · refine List.mem_append_left _ (List.mem_map.mpr ⟨"auth", Text.mem_ascending.mpr ?_, ?_⟩)
    · decide +kernel
    · decide
  · have absent : ¬ FoundIn forms "auth".toList "extern crate auth;".toList :=
      not_foundIn_of_foreign (by decide) (by decide) _
    have judges := formed.judges (by decide) (iff_false_intro absent)
    obtain ⟨patterns, compiled, same⟩ := judges.of_short (by decide)
    exact ⟨patterns, compiled, same.mp⟩

end Rust

end Language

end Ripple
