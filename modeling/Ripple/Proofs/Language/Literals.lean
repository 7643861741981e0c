import Ripple.Proofs.Language.Reading

/-!
Modules that are only mentioned in a string literal. All import forms but one stand at the beginning
of a line, so that a line which assigns a literal shows none of them. The exception is the call of
`require`, which is found anywhere, within a literal too.
-/

namespace Ripple.Language

open Regex Language.Part

/-- A line that assigns a string literal. -/
def assignment (text : String) : String := "x = \"" ++ text ++ "\""

theorem toList_assignment (text : String) :
    (assignment text).toList = ['x', ' ', '=', ' ', '"'] ++ (text.toList ++ ['"']) := by
  simp [assignment]

theorem not_foundIn_assignment {forms : List Form} (foreign : ∀ form ∈ forms, Foreign 'x' form)
    {text : String} (single : '\n' ∉ text.toList) (name : List Char) :
    ¬ FoundIn forms name (assignment text).toList := by
  rw [toList_assignment, List.cons_append]
  apply not_foundIn_of_foreign foreign
  simpa using single

namespace JavaScript

/-- A text calls `require` for a module that names a file. -/
def RequiredIn (name text : List Char) : Prop :=
  ∃ before pad opening imported closing pad' behind,
    text = before ++ ("require(".toList ++ (pad ++ opening :: (imported ++ closing ::
      (pad' ++ ')' :: behind)))) ∧
    (∀ c ∈ before.getLast?, Unicode.isWord c = false) ∧
    (∀ c ∈ pad ++ pad', c = ' ' ∨ c = '\t') ∧
    (∀ c ∈ [opening, closing], c = '\'' ∨ c = '"') ∧
    (∀ c ∈ imported, c ≠ '\'' ∧ c ≠ '"' ∧ c ≠ '\n') ∧ Names .javaScript imported name

theorem foundIn_require_iff {name text : List Char}
    (clean : ∀ c ∈ name, plain.mem c = true ∧ c ≠ '/') :
    FoundIn [(requireFront ++ [leading plain '/'], maybe extension :: requireBack)] name text ↔
      RequiredIn name text := by
  rw [foundIn_quoted_iff clean]
  constructor
  · rintro ⟨p, s, e, q, imported, ⟨before, reads⟩, first, module, last, members, named⟩
    obtain ⟨b, first, second⟩ := takes_seqs_append.mp first
    obtain ⟨a, start, letters⟩ := takes_seqs_append.mp first
    obtain ⟨rfl, isEdge⟩ := (takes_edge_iff reads).mp start
    have call : a.Reads "require(".toList b := takes_chars.mp letters
    obtain ⟨c, blanks, opens⟩ := second
    obtain ⟨pad, _, blank, readsPad⟩ := takes_run.mp blanks
    obtain ⟨opening, quote, readsOpening⟩ := takes_quote_iff.mp opens
    obtain ⟨d, closes, f, blanks', final⟩ := last
    obtain ⟨closing, quote', readsClosing⟩ := takes_quote_iff.mp closes
    obtain ⟨pad', _, blank', readsPad'⟩ := takes_run.mp blanks'
    -- The parts that were read, one after the other, are the whole text up to the call's end.
    have whole := (reads.trans (call.trans (readsPad.trans (readsOpening.trans (module.trans
      (readsClosing.trans (readsPad'.trans final))))))).rest_eq
    rw [call.rest_eq] at isEdge
    refine ⟨before, pad, opening, imported, closing, pad', q.rest,
      by simpa [Point.start] using whole,
      (isEdge_cons_iff (by decide)).mp isEdge, ?_, by simpa using ⟨quote, quote'⟩,
      fun c member => plain_mem_iff.mp (members c member), named⟩
    intro c member
    rw [← blank_mem_iff]
    exact (List.mem_append.mp member).elim (blank c) (blank' c)
  · rintro ⟨before, pad, opening, imported, closing, pad', behind, whole, starts, blanks, quotes,
      members, named⟩
    simp only [List.mem_append, ← blank_mem_iff] at blanks
    simp only [List.mem_cons, List.not_mem_nil, or_false, forall_eq_or_imp, forall_eq] at quotes
    -- The other way round, the parts of the text lead from point to point.
    obtain ⟨p, reads, rest⟩ := Point.exists_reads (p := .start text) whole
    obtain ⟨a, call, restA⟩ := Point.exists_reads rest
    obtain ⟨b, readsPad, restB⟩ := Point.exists_reads restA
    obtain ⟨s, readsOpening, restS⟩ := Point.exists_reads (w := [opening]) restB
    obtain ⟨e, module, restE⟩ := Point.exists_reads restS
    obtain ⟨d, readsClosing, restD⟩ := Point.exists_reads (w := [closing]) restE
    obtain ⟨f, readsPad', restF⟩ := Point.exists_reads restD
    obtain ⟨q, final, _⟩ := Point.exists_reads (w := [')']) restF
    have isEdge : IsEdge before p.rest := by
      rw [call.rest_eq]
      exact (isEdge_cons_iff (by decide)).mpr starts
    refine ⟨p, s, e, q, imported, ⟨before, reads⟩, ?_, module, ?_,
      fun c member => plain_mem_iff.mpr (members c member), named⟩
    · refine takes_seqs_append.mpr ⟨a, takes_seqs_append.mpr ⟨p, ?_, takes_chars.mpr call⟩, b, ?_, ?_⟩
      · exact (takes_edge_iff reads).mpr ⟨rfl, isEdge⟩
      · exact takes_run.mpr ⟨pad, Nat.zero_le _, fun c member => blanks c (.inl member), readsPad⟩
      · exact takes_quote_iff.mpr ⟨opening, quotes.1, readsOpening⟩
    · refine ⟨d, takes_quote_iff.mpr ⟨closing, quotes.2, readsClosing⟩, f, ?_, final⟩
      exact takes_run.mpr ⟨pad', Nat.zero_le _, fun c member => blanks c (.inr member), readsPad'⟩

/-- The quotes around a literal belong to no call. -/
theorem requiredIn_assignment_iff {name : List Char} {text : String} :
    RequiredIn name (assignment text).toList ↔ RequiredIn name text.toList := by
  rw [toList_assignment]
  constructor
  · rintro ⟨before, pad, opening, imported, closing, pad', behind, whole, starts, facts⟩
    -- The call begins behind the opening quote, before which there is no such letter.
    obtain ⟨before, rfl, inner⟩ : ∃ rest, before = ['x', ' ', '=', ' ', '"'] ++ rest ∧
        text.toList ++ ['"'] = rest ++ ("require(".toList ++ (pad ++ opening :: (imported ++
          closing :: (pad' ++ ')' :: behind)))) :=
      Text.split_behind (k := 'r') (by decide) whole
    -- It ends before the closing quote, which is no bracket.
    rcases List.eq_nil_or_concat' behind with rfl | ⟨behind, c, rfl⟩
    · have shape : text.toList ++ ['"'] = (before ++ ("require(".toList ++ (pad ++ opening ::
          (imported ++ closing :: pad')))) ++ [')'] := by simpa using inner
      exact absurd (List.append_inj' shape rfl).2 (by decide)
    · have shape : text.toList ++ ['"'] = (before ++ ("require(".toList ++ (pad ++ opening ::
          (imported ++ closing :: (pad' ++ ')' :: behind))))) ++ [c] := by simpa using inner
      refine ⟨before, pad, opening, imported, closing, pad', behind, (List.append_inj' shape rfl).1,
        ?_, facts⟩
      intro d member
      apply starts
      rw [List.getLast?_append, Option.mem_def.mp member]
      rfl
  · rintro ⟨before, pad, opening, imported, closing, pad', behind, whole, starts, facts⟩
    refine ⟨['x', ' ', '=', ' ', '"'] ++ before, pad, opening, imported, closing, pad', behind ++ ['"'],
      by simp [whole], ?_, facts⟩
    intro c member
    rw [List.getLast?_append] at member
    cases last : before.getLast? with
    | none =>
      obtain rfl : c = '"' := by simpa [last, eq_comm] using member
      decide
    | some d => exact starts c (by simpa [last] using member)

theorem foundIn_assignment_iff {name : List Char} (word : ∀ c ∈ name, Unicode.isWord c = true)
    {text : String} (single : '\n' ∉ text.toList) :
    FoundIn forms name (assignment text).toList ↔ RequiredIn name text.toList := by
  have clean : ∀ c ∈ name, plain.mem c = true ∧ c ≠ '/' := by
    intro c member
    have here := word c member
    rw [plain_mem_iff]
    refine ⟨⟨?_, ?_, ?_⟩, ?_⟩ <;> rintro rfl <;> exact absurd here (by decide)
  have split : forms = forms.take 2 ++
      [(requireFront ++ [leading plain '/'], maybe extension :: requireBack)] := rfl
  rw [split, foundIn_append_iff, foundIn_require_iff clean, requiredIn_assignment_iff]
  apply or_iff_right
  exact not_foundIn_assignment (by decide) single name

end JavaScript

/-- A module that a line mentions only in a string literal is taken for an import in one case: in
JavaScript, where the literal holds a call of `require` for the module. -/
theorem literal_confirmed_iff {l : Language} (member : l ∈ LanguageTable.builtin.languages)
    {name text : String} (word : ∀ c ∈ name.toList, Unicode.isWord c = true)
    (single : '\n' ∉ text.toList) :
    l.Judges name (assignment text)
      (l = javaScript ∧ JavaScript.RequiredIn name.toList text.toList) := by
  have absent : ∀ {forms : List Form}, (∀ form ∈ forms, Foreign 'x' form) → l ≠ javaScript →
      (FoundIn forms name.toList (assignment text).toList ↔
        l = javaScript ∧ JavaScript.RequiredIn name.toList text.toList) := by
    intro forms foreign other
    apply iff_of_false
    · exact not_foundIn_assignment foreign single _
    · exact fun same => other same.1
  have apart : ∀ {l' : Language}, l'.name ≠ javaScript.name → l' ≠ javaScript :=
    fun other same => other (congrArg Language.name same)
  rcases builtin_cases member with rfl | rfl | rfl | rfl | rfl | rfl
  · exact Python.formed.judges (by decide) (absent (by decide) (apart (by decide)))
  · exact JavaScript.formed.judges (by decide)
      ((JavaScript.foundIn_assignment_iff word single).trans (by simp))
  · exact Go.formed.judges (by decide) (absent (by decide) (apart (by decide)))
  · exact Rust.formed.judges (by decide) (absent (by decide) (apart (by decide)))
  · exact Java.formed.judges (by decide) (absent (by decide) (apart (by decide)))
  · exact CFamily.formed.judges (by decide) (absent (by decide) (apart (by decide)))

theorem literal_confirmed_iff_mention :
    python ∈ LanguageTable.builtin.languages ∧
      python.Judges "auth" (assignment "from auth import login")
        (python = javaScript ∧ JavaScript.RequiredIn "auth".toList "from auth import login".toList) := by
  have member : python ∈ LanguageTable.builtin.languages := List.mem_cons_self
  have word : ∀ c ∈ "auth".toList, Unicode.isWord c = true := List.all_eq_true.mp (by decide)
  exact ⟨member, literal_confirmed_iff member word (by decide)⟩

/-- A literal that holds a call is taken for an import. -/
theorem literal_call_confirmed :
    (∀ c ∈ "auth".toList, Unicode.isWord c = true) ∧
      (∀ c ∈ ['\n', '"', '\\'], c ∉ "require('auth')".toList) ∧
      ∃ patterns, javaScript.dependencyPatterns "auth" = .ok patterns ∧
        ∃ pattern ∈ patterns, pattern.matchesIn (assignment "require('auth')").toList = true := by
  have word : ∀ c ∈ "auth".toList, Unicode.isWord c = true := List.all_eq_true.mp (by decide)
  have single : ∀ c ∈ ['\n', '"', '\\'], c ∉ "require('auth')".toList := by
    simp only [List.mem_cons, List.not_mem_nil, or_false, forall_eq_or_imp, forall_eq]
    decide
  have called : JavaScript.RequiredIn "auth".toList "require('auth')".toList := by
    refine ⟨[], [], '\'', "auth".toList, '\'', [], [], by decide, by simp, by simp, by simp, ?_,
      JavaScript.names_iff.mpr ⟨[], .inl rfl, by decide⟩⟩
    exact fun c member => JavaScript.plain_mem_iff.mp (List.all_eq_true.mp (by decide) c member)
  have judges := JavaScript.formed.judges (by decide) (JavaScript.foundIn_assignment_iff word
    (single '\n' List.mem_cons_self))
  obtain ⟨patterns, compiled, same⟩ := judges.of_short (by decide)
  exact ⟨word, single, patterns, compiled, same.mpr called⟩

end Ripple.Language
