import Ripple.Proofs.Analysis.ReverseSearch
import Ripple.Proofs.Language.Agreement

/-!
The test that a source contains the name of a module only saves time. Each pattern of a built-in
language reads the name of the module character by character, whatever its characters mean in a
pattern, so that a source without the name has no match either.
-/

namespace Ripple

open Ripple.Path

theorem LanguageTable.mem_of_ofPath? {t : LanguageTable} {path : OsString} {l : Language}
    (found : t.ofPath? path = some l) : l ∈ t.languages := by
  obtain ⟨index, _, here⟩ := Option.bind_eq_some_iff.mp found
  exact List.mem_of_getElem? here

namespace Engine

/-- For the built-in languages, a candidate that passes no test is judged as one that does. -/
theorem isDependent_unchecked (settings : Settings) (fs : Files) (root : List OsString)
    (stem : String) :
    Query.isDependent ⟨⟨settings, .builtin⟩, fs, root, stem, fun _ => true⟩ =
      (query ⟨settings, .builtin⟩ fs root stem).isDependent := by
  funext below
  rw [Bool.eq_iff_iff, Query.isDependent_iff, Query.isDependent_iff]
  constructor
  · -- A match tells that the test would have been passed.
    rintro ⟨l, source, patterns, written, decoded, compiled, _, pattern, listed, matched⟩
    obtain ⟨forms, formed, steady⟩ :=
      Language.builtin_formed (LanguageTable.mem_of_ofPath? written)
    have occurs := formed.occurs_of_match steady compiled listed matched
    exact ⟨l, source, patterns, written, decoded, compiled, Text.contains_iff.mpr occurs, pattern,
      listed, matched⟩
  · rintro ⟨l, source, patterns, written, decoded, compiled, _, found⟩
    exact ⟨l, source, patterns, written, decoded, compiled, rfl, found⟩

/-- What matches a pattern of a built-in language for a module contains the name of the module. So a
search over the built-in languages has the same outcome if its candidates are not tested first. -/
theorem precheck_redundant :
    (∀ l ∈ LanguageTable.builtin.languages, ∀ (stem source : String) (patterns : List Pattern),
      l.dependencyPatterns stem = .ok patterns →
      (∃ pattern ∈ patterns, pattern.matchesIn source.toList = true) →
      stem.toList <:+: source.toList) ∧
    ∀ (settings : Settings) (fs : Files) (expired : Deadline) (target root : List OsString)
      (schedule : Schedule),
      (findDependents ⟨settings, .builtin⟩ fs expired target root schedule).1 =
        (searchBy (fun _ _ => true) ⟨settings, .builtin⟩ fs expired target root schedule).1 := by
  constructor
  · rintro l member stem source patterns compiled ⟨pattern, listed, matched⟩
    obtain ⟨forms, formed, steady⟩ := Language.builtin_formed member
    exact formed.occurs_of_match steady compiled listed matched
  · intro settings fs expired target root schedule
    rw [findDependents, searchBy, searchBy]
    cases textStem? (Files.pathOf target) with
    | none => rfl
    | some stem =>
      -- The outcome depends on the judgement of each candidate, not on the way to it.
      have reported : Query.reports ⟨⟨settings, .builtin⟩, fs, root, stem, fun _ => true⟩ expired =
          (query ⟨settings, .builtin⟩ fs root stem).reports expired := by
        funext below
        rw [Query.reports, Query.reports, isDependent_unchecked]
      simp only [Query.outcome_run, reported]

/-- A module that is the second of a list, and not at the start of its path. -/
theorem precheck_redundant_listing :
    (∃ patterns, Language.python.dependencyPatterns "util" = .ok patterns ∧
      ∃ pattern ∈ patterns, pattern.matchesIn "import os, pkg.util as u\n".toList = true) ∧
    "util".toList <:+: "import os, pkg.util as u\n".toList := by
  obtain ⟨patterns, compiled, judged⟩ := Language.listing_imports_util
  have found := (imports_iff.mp judged).2
  exact ⟨⟨patterns, compiled, found⟩,
    precheck_redundant.1 Language.python List.mem_cons_self _ _ patterns compiled found⟩

end Engine

end Ripple
