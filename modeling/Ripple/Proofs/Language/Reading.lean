import Ripple.Proofs.Language.Naming

/-!
How the parts of patterns read a text, told by the text alone: where a line begins, where a word
begins or ends, what a path leads through, and with which characters a way through an expression can
begin. What the patterns for a module say of a source is thereby told by the source.
-/

namespace Ripple

/-- A text is cut in one way only into characters of a kind and what begins with another kind. -/
theorem Text.run_unique {kind : Char → Bool} {u v r s : List Char}
    (members : ∀ c ∈ u, kind c = true) (members' : ∀ c ∈ v, kind c = true)
    (ends : ∀ c ∈ r.head?, kind c = false) (ends' : ∀ c ∈ s.head?, kind c = false)
    (same : u ++ r = v ++ s) : u = v ∧ r = s := by
  have longer : ∀ {u v r s : List Char}, (∀ c ∈ v, kind c = true) →
      (∀ c ∈ r.head?, kind c = false) → (∃ a, v = u ++ a ∧ r = a ++ s) → u = v ∧ r = s := by
    rintro u _ _ s members ends ⟨a, rfl, rfl⟩
    cases a with
    | nil => simp
    | cons c a =>
      have inside := members c (by simp)
      have outside := ends c rfl
      rw [inside] at outside
      contradiction
  rcases List.append_eq_append_iff.mp same with shorter | shorter
  · exact longer members' ends shorter
  · obtain ⟨rfl, rfl⟩ := longer members ends' shorter
    exact ⟨rfl, rfl⟩

/-- A character is found behind a part of the text without it. -/
theorem Text.split_behind {u t x r : List Char} {k : Char} (absent : k ∉ u)
    (same : u ++ t = x ++ k :: r) : ∃ y, x = u ++ y ∧ t = y ++ k :: r := by
  rcases List.append_eq_append_iff.mp same with ⟨a, head, rest⟩ | ⟨a, rfl, rest⟩
  · exact ⟨a, head, rest⟩
  · cases a with
    | nil => exact ⟨[], by simp, rest.symm⟩
    | cons c a =>
      obtain ⟨rfl, _⟩ := List.cons.inj rest
      simp at absent

theorem Text.lastPart_of_line {sep : Char} {u line : List Char}
    (begins : u = [] ∨ ∃ lines, u = lines ++ [sep]) (single : sep ∉ line) :
    lastPart sep (u ++ line) = line := by
  rcases begins with rfl | ⟨lines, rfl⟩
  · exact lastPart_of_not_mem single
  · rw [List.append_assoc, List.singleton_append]
    exact lastPart_append lines single

/-- A word begins or ends between two texts. -/
def IsEdge (before behind : List Char) : Prop :=
  before.getLast?.any Unicode.isWord ≠ behind.head?.any Unicode.isWord

theorem isEdge_cons_iff {u rest : List Char} {c : Char} (word : Unicode.isWord c = true) :
    IsEdge u (c :: rest) ↔ ∀ d ∈ u.getLast?, Unicode.isWord d = false := by
  cases u.getLast?.eq_none_or_eq_some with
  | inl none => simp [IsEdge, none, word]
  | inr some =>
    obtain ⟨d, some⟩ := some
    simp [IsEdge, some, word]

theorem isEdge_concat_iff {u rest : List Char} {c : Char} (word : Unicode.isWord c = true) :
    IsEdge (u ++ [c]) rest ↔ ∀ d ∈ rest.head?, Unicode.isWord d = false := by
  cases rest with
  | nil => simp [IsEdge, word]
  | cons d rest => simp [IsEdge, word]

namespace Regex

/-- Whether a way through an expression may begin with a character. -/
def begins (c : Char) : Regex → Bool
  | empty | assert _ => false
  | char d => c = d
  | set s => s.mem c
  | seq r s => r.begins c || r.nullable && s.begins c
  | alt r s => r.begins c || s.begins c
  | group _ r | rep r _ _ _ => r.begins c

theorem Takes.begins {r : Regex} {p q : Point} (takes : r.Takes p q) {c : Char} {w : List Char}
    (reads : p.Reads (c :: w) q) : r.begins c = true := by
  induction r generalizing p q w with
  | empty =>
    cases takes
    exact absurd (reads.chars_unique (v := []) rfl) (by simp)
  | assert a =>
    obtain ⟨_, rfl⟩ := takes
    exact absurd (reads.chars_unique (v := []) rfl) (by simp)
  | char d =>
    obtain ⟨rfl, _⟩ := List.cons.inj (reads.chars_unique takes)
    simp [Regex.begins]
  | set s =>
    obtain ⟨d, member, single⟩ := takes
    obtain ⟨rfl, _⟩ := List.cons.inj (reads.chars_unique single)
    exact member
  | seq r s ihr ihs =>
    obtain ⟨o, first, second⟩ := takes
    obtain ⟨u, readsU, consumes⟩ := first.reads
    obtain ⟨v, readsV, _⟩ := second.reads
    have whole := reads.chars_unique (readsU.trans readsV)
    cases u with
    | nil =>
      -- The first part reads nothing, so the second one reads the character.
      rw [List.nil_append] at whole
      subst whole
      cases readsU
      have passed : r.nullable = true := by simpa using consumes
      simp [Regex.begins, passed, ihs second readsV]
    | cons d u =>
      obtain ⟨rfl, _⟩ := List.cons.inj whole
      simp [Regex.begins, ihr first readsU]
  | alt r s ihr ihs =>
    rcases takes with takes | takes
    · simp [Regex.begins, ihr takes reads]
    · simp [Regex.begins, ihs takes reads]
  | group i r ih => exact ih takes reads
  | rep r min max greedy ih =>
    obtain ⟨n, -, -, iterated⟩ := takes
    -- Rounds that read nothing lead back to where they began.
    induction n generalizing p with
    | zero =>
      cases iterated
      exact absurd (reads.chars_unique (v := []) rfl) (by simp)
    | succ n ihn =>
      obtain ⟨o, first, rest⟩ := iterated
      obtain ⟨u, readsU, _⟩ := first.reads
      cases u with
      | nil =>
        cases readsU
        exact ihn reads rest
      | cons d u =>
        obtain ⟨rfl, _⟩ := List.cons.inj (reads.rest_eq.symm.trans readsU.rest_eq)
        exact ih first readsU

end Regex

open Regex Ripple.Language Language.Part

theorem takes_edge_iff {text w : List Char} {p q : Point} (reads : (Point.start text).Reads w p) :
    edge.Takes p q ↔ q = p ∧ IsEdge w p.rest := by
  have holds : Assertion.holds (.word .boundary false) p = true ↔ IsEdge w p.rest := by
    simp [Assertion.holds, WordEdge.holds, IsEdge, Point.before_eq_getLast? reads]
  rw [edge, Takes, holds, and_comm]

theorem holds_lineStart_iff {text u : List Char} {p : Point} (reads : (Point.start text).Reads u p) :
    Assertion.holds .lineStart p = true ↔ u = [] ∨ ∃ v, u = v ++ ['\n'] := by
  rw [Assertion.holds, Point.before_eq_getLast? reads]
  rcases List.eq_nil_or_concat' u with rfl | ⟨v, c, rfl⟩
  · simp
  · simp

namespace Language

theorem blank_mem_iff {c : Char} : blank.mem c = true ↔ c = ' ' ∨ c = '\t' := by
  simp only [blank, CharSet.mem_unions, List.mem_cons, List.not_mem_nil, or_false, exists_eq_or_imp,
    exists_eq_left, CharSet.mem_single]

theorem blank_mem {c : Char} (member : blank.mem c = true) :
    Unicode.isSpace c = true ∧ c ≠ ',' := by
  rcases blank_mem_iff.mp member with rfl | rfl <;> decide

/-- What follows the indentation of a line is found where a line begins, behind blanks. -/
theorem takes_indent_iff {rs : List Regex} {text u : List Char} {p q : Point}
    (reads : (Point.start text).Reads u p) :
    (seqs (indent ++ rs)).Takes p q ↔ (u = [] ∨ ∃ v, u = v ++ ['\n']) ∧
      ∃ pad o, (∀ c ∈ pad, blank.mem c = true) ∧ p.Reads pad o ∧ (seqs rs).Takes o q := by
  rw [takes_seqs_append, ← holds_lineStart_iff reads]
  constructor
  · rintro ⟨o, ⟨_, rfl, _, ⟨begins, rfl⟩, blanks⟩, rest⟩
    obtain ⟨pad, _, members, readsPad⟩ := takes_run.mp blanks
    exact ⟨begins, pad, o, members, readsPad, rest⟩
  · rintro ⟨begins, pad, o, members, readsPad, rest⟩
    have blanks : (many blank).Takes p o := takes_run.mpr ⟨pad, Nat.zero_le _, members, readsPad⟩
    exact ⟨o, ⟨p, rfl, p, ⟨begins, rfl⟩, blanks⟩, rest⟩

theorem reads_leading {set : CharSet} {sep : Char} {p q : Point}
    (takes : (leading set sep).Takes p q) :
    ∃ w, p.Reads w q ∧ (w = [] ∨ ∃ dir, w = dir ++ [sep] ∧ ∀ c ∈ dir, set.mem c = true) := by
  rcases takes_optional.mp takes with rfl | ⟨o, inner, last⟩
  · exact ⟨[], rfl, .inl rfl⟩
  · obtain ⟨dir, _, members, reads⟩ := takes_run.mp inner
    exact ⟨dir ++ [sep], reads.trans last, .inr ⟨dir, rfl, members⟩⟩

theorem foundIn_append_iff {forms forms' : List Form} {name text : List Char} :
    FoundIn (forms ++ forms') name text ↔ FoundIn forms name text ∨ FoundIn forms' name text := by
  simp only [FoundIn, List.mem_append, or_and_right, exists_or]

/-- A form that stands at the beginning of a line and cannot begin with a character. -/
def Foreign (c : Char) (form : Form) : Prop :=
  [.empty, .assert .lineStart] <+: form.1 ∧ (seqs form.1).nullable = false ∧
    (seqs form.1).begins c = false

instance (c : Char) (form : Form) : Decidable (Foreign c form) :=
  inferInstanceAs (Decidable (_ ∧ _ ∧ _))

theorem not_foundIn_of_foreign {forms : List Form} {c : Char} {rest : List Char}
    (foreign : ∀ form ∈ forms, Foreign c form) (single : '\n' ∉ c :: rest) (name : List Char) :
    ¬ FoundIn forms name (c :: rest) := by
  rintro ⟨form, member, p, a, _, _, ⟨u, before⟩, first, _⟩
  obtain ⟨⟨parts, shape⟩, consumes, other⟩ := foreign form member
  -- The text has one line only, so the form is tried at its beginning.
  have start : p = .start (c :: rest) := by
    rw [← shape] at first
    obtain ⟨o, ⟨_, rfl, begins, rfl⟩, _⟩ := takes_seqs_append.mp first
    rcases (holds_lineStart_iff before).mp begins with rfl | ⟨v, rfl⟩
    · exact before
    · refine absurd ?_ single
      rw [show c :: rest = _ from before.rest_eq]
      simp
  subst start
  obtain ⟨w, reads, some⟩ := first.reads
  cases w with
  | nil => exact some consumes rfl
  | cons d w =>
    obtain ⟨rfl, _⟩ := List.cons.inj (reads.rest_eq : c :: rest = d :: w ++ a.rest)
    rw [first.begins reads] at other
    contradiction

/-- The patterns of a language for a module match a source exactly if a condition holds. Only a name
of more than 100000 bytes may be too long to have patterns. -/
def Judges (l : Language) (name source : String) (condition : Prop) : Prop :=
  (∃ patterns, l.dependencyPatterns name = .ok patterns ∧
    ((∃ pattern ∈ patterns, pattern.matchesIn source.toList = true) ↔ condition)) ∨
  (l.dependencyPatterns name = .error .tooBig ∧ 100000 < Point.size name.toList)

theorem Formed.judges {l : Language} {forms : List Form} (formed : l.Formed forms)
    (fine : ∀ form ∈ forms, (∀ r ∈ form.1 ++ form.2, r.steady = true) ∧
      partsBound (form.1 ++ form.2) ≤ 2000000) {name source : String} {condition : Prop}
    (found : FoundIn forms name.toList source.toList ↔ condition) :
    l.Judges name source condition := by
  rcases formed.cases name with ⟨patterns, compiled, _⟩ | ⟨refused, form, member, big⟩
  · refine .inl ⟨patterns, compiled, Iff.trans ?_ found⟩
    exact formed.matches_iff (fun form member => (fine form member).1) compiled
  · exact .inr ⟨refused, form.size_of_tooBig (fine form member).2 big⟩

theorem Judges.of_short {l : Language} {name source : String} {condition : Prop}
    (judges : l.Judges name source condition) (short : Point.size name.toList ≤ 100000) :
    ∃ patterns, l.dependencyPatterns name = .ok patterns ∧
      ((∃ pattern ∈ patterns, pattern.matchesIn source.toList = true) ↔ condition) :=
  judges.resolve_right fun refused => Nat.not_lt.mpr short refused.2

namespace JavaScript

theorem takes_quote_iff {p q : Point} :
    quote.Takes p q ↔ ∃ c, (c = '\'' ∨ c = '"') ∧ p.Reads [c] q := by
  simp only [quote, Takes, CharSet.mem_unions, List.mem_cons, List.not_mem_nil, or_false,
    exists_eq_or_imp, exists_eq_left, CharSet.mem_single]

theorem plain_mem_iff {c : Char} : plain.mem c = true ↔ c ≠ '\'' ∧ c ≠ '"' ∧ c ≠ '\n' := by
  simp [plain, mem_except]

theorem reads_extension {p q : Point} (takes : (maybe extension).Takes p q) :
    ∃ ending, (ending = [] ∨ IsEnding ending) ∧ p.Reads ending q := by
  rcases takes_optional.mp takes with rfl | ⟨a, dot, b, kinds, c, languages, d, letter, dialects⟩
  · exact ⟨[], .inl rfl, rfl⟩
  · obtain ⟨kind, oneKind, first⟩ : ∃ kind ∈ [[], ['c'], ['m']], a.Reads kind b := by
      rcases takes_optional.mp kinds with rfl | ⟨x, member, reads⟩
      · exact ⟨[], by simp, rfl⟩
      · simp only [CharSet.mem_unions, List.mem_cons, List.not_mem_nil, or_false, exists_eq_or_imp,
          exists_eq_left, CharSet.mem_single] at member
        rcases member with rfl | rfl
        · exact ⟨['c'], by simp, reads⟩
        · exact ⟨['m'], by simp, reads⟩
    obtain ⟨language, oneLanguage, second⟩ : ∃ language ∈ ['j', 't'], b.Reads [language] c := by
      obtain ⟨x, member, reads⟩ := languages
      simp only [CharSet.mem_unions, List.mem_cons, List.not_mem_nil, or_false, exists_eq_or_imp,
        exists_eq_left, CharSet.mem_single] at member
      exact ⟨x, by simpa using member, reads⟩
    obtain ⟨dialect, oneDialect, third⟩ : ∃ dialect ∈ [[], ['x']], d.Reads dialect q := by
      rcases takes_optional.mp dialects with rfl | reads
      · exact ⟨[], by simp, rfl⟩
      · exact ⟨['x'], by simp, reads⟩
    exact ⟨_, .inr ⟨kind, oneKind, language, oneLanguage, dialect, oneDialect, rfl⟩,
      dot.trans (first.trans (second.trans (letter.trans third)))⟩

theorem not_mem_ending {ending : List Char} (kind : ending = [] ∨ IsEnding ending) {c : Char}
    (other : c ∉ ['.', 'c', 'm', 'j', 't', 's', 'x']) : c ∉ ending := by
  rcases kind with rfl | ⟨kind, oneKind, language, oneLanguage, dialect, oneDialect, rfl⟩
  · simp
  · simp only [List.mem_cons, List.not_mem_nil, or_false, not_or] at *
    rcases oneKind with rfl | rfl | rfl <;> rcases oneLanguage with rfl | rfl <;>
      rcases oneDialect with rfl | rfl <;> simp [other]

theorem names_iff {imported stem : List Char} :
    Names .javaScript imported stem ↔ ∃ ending, (ending = [] ∨ IsEnding ending) ∧
      Text.lastPart '/' imported = stem ++ ending := by
  constructor
  · generalize shape : javaScript = l
    intro named
    cases named with
    | javaScript kind named => exact ⟨_, kind, named⟩
    | _ => exact absurd (congrArg Language.name shape) (by decide)
  · rintro ⟨ending, kind, named⟩
    exact .javaScript kind named

/-- A form for a quoted module is found where its front and back stand around a module that names the
file. -/
theorem foundIn_quoted_iff {front back : List Regex} {name text : List Char}
    (clean : ∀ c ∈ name, plain.mem c = true ∧ c ≠ '/') :
    FoundIn [(front ++ [leading plain '/'], maybe extension :: back)] name text ↔
      ∃ p s e q w, p.In text ∧ (seqs front).Takes p s ∧ s.Reads w e ∧ (seqs back).Takes e q ∧
        (∀ c ∈ w, plain.mem c = true) ∧ Names .javaScript w name := by
  constructor
  · rintro ⟨form, member, p, a, b, q, inside, first, reads, last⟩
    obtain rfl := List.mem_singleton.mp member
    obtain ⟨s, first, leads⟩ := takes_seqs_append.mp first
    obtain ⟨e, extension, last⟩ := takes_seqs_cons.mp last
    obtain ⟨dir, readsDir, shape⟩ := reads_leading leads
    obtain ⟨ending, kind, readsEnding⟩ := reads_extension extension
    -- What stands behind the last slash is the name with its ending.
    have slash : '/' ∉ name ++ ending := by
      rw [List.mem_append, not_or]
      exact ⟨fun member => (clean _ member).2 rfl, not_mem_ending kind (by decide)⟩
    refine ⟨p, s, e, q, dir ++ (name ++ ending), inside, first,
      readsDir.trans (reads.trans readsEnding), last, ?_, names_iff.mpr ⟨ending, kind, ?_⟩⟩
    · intro c member
      simp only [List.mem_append] at member
      rcases member with member | member | member
      · rcases shape with rfl | ⟨dir, rfl, members⟩
        · simp at member
        · simp only [List.mem_append, List.mem_singleton] at member
          rcases member with member | rfl
          · exact members c member
          · decide
      · exact (clean c member).1
      · rw [plain_mem_iff]
        refine ⟨?_, ?_, ?_⟩ <;> rintro rfl <;> exact not_mem_ending kind (by decide) member
    · exact Text.lastPart_of_line (shape.imp_right fun found => found.imp fun _ => And.left) slash
  · rintro ⟨p, s, e, q, w, inside, first, reads, last, members, named⟩
    obtain ⟨ending, kind, named⟩ := names_iff.mp named
    obtain ⟨a, leads, part⟩ := takes_leading '/' members reads
    rw [named] at part
    obtain ⟨b, name, rest⟩ := Point.reads_append.mp part
    exact ⟨_, List.mem_singleton_self _, p, a, b, q, inside, takes_seqs_append.mpr ⟨s, first, leads⟩,
      name, takes_seqs_cons.mpr ⟨e, takes_extension kind rest, last⟩⟩

end JavaScript

end Language

end Ripple
