import Ripple.Proofs.Language.LineEnds
import Ripple.Proofs.Language.Naming

/-!
The built-in languages are settled: none of their patterns minds a carriage return in front of a
line feed, and neither do their templates, whatever name without a line end is put into them.
-/

namespace Ripple

open Text

open Pattern

theorem ExportRule.settled_ofText {source : String} {cs : List Char} {kind : SymbolKind}
    {visibility : Visibility} (text : source = String.ofList cs)
    (checked : settled ⟨.ofChars source cs, kind, visibility⟩ = true) :
    settled ⟨.ofText source, kind, visibility⟩ = true := by
  rwa [ofText_eq text]

theorem ImportRule.settled_ofText {source : String} {cs : List Char} {reading : ImportReading}
    (text : source = String.ofList cs)
    (checked : settled ⟨.ofChars source cs, reading⟩ = true) :
    settled ⟨.ofText source, reading⟩ = true := by
  rwa [ofText_eq text]

namespace Language

open List

theorem python_settled : python.Settled where
  rules := by
    rintro _ ⟨⟩
    refine forall_mem_cons.mpr ⟨?_, forall_mem_cons.mpr ⟨?_, forall_mem_singleton.mpr ?_⟩⟩
    · exact ExportRule.settled_ofText rfl rfl
    · exact ExportRule.settled_ofText rfl rfl
    · exact ExportRule.settled_ofText rfl rfl
  groups := by simp [python]
  imports := by
    refine forall_mem_cons.mpr ⟨?_, forall_mem_cons.mpr ⟨?_, forall_mem_singleton.mpr ?_⟩⟩
    · exact ImportRule.settled_ofText rfl rfl
    · exact ImportRule.settled_ofText (joined rfl rfl) rfl
    · exact ImportRule.settled_ofText rfl rfl

theorem javaScript_settled : javaScript.Settled where
  rules := by
    rintro _ ⟨⟩
    refine forall_mem_cons.mpr ⟨?_, forall_mem_cons.mpr ⟨?_, forall_mem_cons.mpr ⟨?_,
      forall_mem_cons.mpr ⟨?_, forall_mem_singleton.mpr ?_⟩⟩⟩⟩
    · exact ExportRule.settled_ofText (joined rfl rfl) rfl
    · exact ExportRule.settled_ofText (joined rfl rfl) rfl
    · exact ExportRule.settled_ofText (joined rfl rfl) rfl
    · exact ExportRule.settled_ofText rfl rfl
    · exact ExportRule.settled_ofText rfl rfl
  groups := forall_mem_singleton.mpr (by decide)
  imports := by
    refine forall_mem_cons.mpr ⟨?_, forall_mem_cons.mpr ⟨?_, forall_mem_cons.mpr ⟨?_,
      forall_mem_singleton.mpr ?_⟩⟩⟩
    · exact ImportRule.settled_ofText rfl rfl
    · exact ImportRule.settled_ofText rfl rfl
    · exact ImportRule.settled_ofText rfl rfl
    · exact ImportRule.settled_ofText rfl rfl

theorem go_settled : go.Settled where
  rules := by
    rintro _ ⟨⟩
    refine forall_mem_cons.mpr ⟨?_, forall_mem_cons.mpr ⟨?_, forall_mem_cons.mpr ⟨?_,
      forall_mem_singleton.mpr ?_⟩⟩⟩
    · exact ExportRule.settled_ofText rfl rfl
    · exact ExportRule.settled_ofText rfl rfl
    · exact ExportRule.settled_ofText rfl rfl
    · exact ExportRule.settled_ofText rfl rfl
  groups := forall_mem_singleton.mpr (by decide)
  imports := by
    refine forall_mem_cons.mpr ⟨?_, forall_mem_singleton.mpr ?_⟩
    · exact ImportRule.settled_ofText rfl rfl
    · exact ImportRule.settled_ofText rfl rfl

theorem rust_settled : rust.Settled where
  rules := by
    rintro _ ⟨⟩
    refine forall_mem_cons.mpr ⟨?_, forall_mem_cons.mpr ⟨?_, forall_mem_singleton.mpr ?_⟩⟩
    · exact ExportRule.settled_ofText (joined rfl rfl) (by decide +kernel)
    · exact ExportRule.settled_ofText (joined rfl rfl) rfl
    · exact ExportRule.settled_ofText (joined rfl rfl) rfl
  groups := by simp [rust]
  imports := by
    refine forall_mem_cons.mpr ⟨?_, forall_mem_cons.mpr ⟨?_, forall_mem_singleton.mpr ?_⟩⟩
    · exact ImportRule.settled_ofText rfl rfl
    · exact ImportRule.settled_ofText rfl rfl
    · exact ImportRule.settled_ofText rfl rfl

theorem java_settled : java.Settled where
  rules := by
    rintro _ ⟨⟩
    refine forall_mem_cons.mpr ⟨?_, forall_mem_cons.mpr ⟨?_, forall_mem_singleton.mpr ?_⟩⟩
    · exact ExportRule.settled_ofText (joined rfl rfl) (by decide +kernel)
    · exact ExportRule.settled_ofText (joined (joined rfl rfl) rfl) (by decide +kernel)
    · exact ExportRule.settled_ofText (joined rfl rfl) (by decide +kernel)
  groups := by simp [java]
  imports := forall_mem_singleton.mpr (ImportRule.settled_ofText rfl rfl)

theorem cFamily_settled : cFamily.Settled where
  rules := by simp [cFamily]
  groups := by simp [cFamily]
  imports := by
    refine forall_mem_cons.mpr ⟨?_, forall_mem_singleton.mpr ?_⟩
    · exact ImportRule.settled_ofText rfl rfl
    · exact ImportRule.settled_ofText rfl rfl

theorem builtin_settled {l : Language} (member : l ∈ LanguageTable.builtin.languages) :
    l.Settled := by
  rcases builtin_cases member with rfl | rfl | rfl | rfl | rfl | rfl
  · exact python_settled
  · exact javaScript_settled
  · exact go_settled
  · exact rust_settled
  · exact java_settled
  · exact cFamily_settled

section Templates

open Regex

/-- Whether a template of this form finds the same in either form of a source, for every name
without a line end. -/
def Form.settles (form : Form) : Bool :=
  blocks form.1 && Regex.settles form.1 && (seqs form.2).flow = .same

theorem builtin_forms_settle {l : Language} (member : l ∈ LanguageTable.builtin.languages) :
    ∃ forms, l.Formed forms ∧ ∀ form ∈ forms,
      (∀ r ∈ form.1 ++ form.2, r.steady = true) ∧ form.settles = true := by
  rcases builtin_cases member with rfl | rfl | rfl | rfl | rfl | rfl
  · exact ⟨_, Python.formed, by decide +kernel⟩
  · exact ⟨_, JavaScript.formed, by decide +kernel⟩
  · exact ⟨_, Go.formed, by decide +kernel⟩
  · exact ⟨_, Rust.formed, by decide +kernel⟩
  · exact ⟨_, Java.formed, by decide +kernel⟩
  · exact ⟨_, CFamily.formed, by decide +kernel⟩

theorem Form.matchesIn_filled_crlf {form : Form} (steady : ∀ r ∈ form.1 ++ form.2, r.steady = true)
    (settles : form.settles = true) {name : String} (feed : '\n' ∉ name.toList)
    (carriage : '\r' ∉ name.toList) (text : List Char) :
    (form.filled name).matchesIn (crlf text) = (form.filled name).matchesIn text := by
  simp only [Form.settles, Bool.and_eq_true, decide_eq_true_eq] at settles
  obtain ⟨⟨blocked, settled⟩, same⟩ := settles
  have parts : form.filled name = seqs (form.1 ++ (name.toList.map char ++ form.2)) := by
    rw [Form.filled, List.append_assoc]
  refine matchesIn_crlf (filled_steady steady name) ?_ ?_ text
  · rw [parts, stance_seqs_append blocked]
  · rw [parts, flow_seqs_append settled, flow_seqs_append (settles_chars feed carriage), same]

/-- A pattern for the import of a module matches a source in either form or in none. -/
theorem dependency_matchesIn_crlf {l : Language} (member : l ∈ LanguageTable.builtin.languages)
    {stem : String} (feed : '\n' ∉ stem.toList) (carriage : '\r' ∉ stem.toList)
    {patterns : List Pattern} (compiled : l.dependencyPatterns stem = .ok patterns)
    {pattern : Pattern} (listed : pattern ∈ patterns) (text : List Char) :
    pattern.matchesIn (crlf text) = pattern.matchesIn text := by
  obtain ⟨forms, formed, fine⟩ := builtin_forms_settle member
  rcases formed.cases stem with ⟨patterns', compiled', each⟩ | ⟨refused, _⟩
  · obtain rfl : patterns = patterns' := by simpa [compiled] using compiled'
    have kept : pattern.regex ∈ forms.map (·.filled stem) := each ▸ List.mem_map_of_mem listed
    obtain ⟨form, among, shape⟩ := List.mem_map.mp kept
    rw [Pattern.matchesIn, Pattern.matchesIn, ← shape]
    exact Form.matchesIn_filled_crlf (fine form among).1 (fine form among).2 feed carriage text
  · rw [compiled] at refused
    cases refused

end Templates

end Language

end Ripple
