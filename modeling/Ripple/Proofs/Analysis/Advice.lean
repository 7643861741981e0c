import Ripple.Proofs.Analysis.Keeping
import Ripple.Proofs.Language.Agreement
import Ripple.Proofs.Language.ExportLines
import Ripple.Proofs.Language.ImportUnion
import Ripple.Proofs.Text.Encoding
import Ripple.Proofs.Text.Pieces

/-!
Advice on the symbols that are used most. The sort by the number of uses leaves symbols with equally
many in the order of their names, and it does not matter that the list is cut before the threshold is
applied. So a report names the first three of all symbols that are used more than twice.
-/

namespace Ripple

/-- In a descending list, those above a threshold come first, so that they may be picked before or
after the list is cut. -/
theorem filter_take_of_descends {α : Type} {count : α → Nat} {xs : List α}
    (descends : xs.Pairwise fun a b => count b ≤ count a) (k least : Nat) :
    (xs.take k).filter (fun x => least < count x) = (xs.filter fun x => least < count x).take k := by
  induction xs generalizing k with
  | nil => simp
  | cons x xs ih =>
    obtain ⟨first, rest⟩ := List.pairwise_cons.mp descends
    cases k with
    | zero => simp
    | succ k =>
      rw [List.take_succ_cons]
      by_cases above : least < count x
      · rw [List.filter_cons_of_pos (by simpa using above),
          List.filter_cons_of_pos (by simpa using above), List.take_succ_cons, ih rest]
      · -- Nothing behind a member below the threshold is above it.
        have none : xs.filter (fun x => least < count x) = [] := by
          rw [List.filter_eq_nil_iff]
          intro y member passes
          have below := first y member
          simp only [decide_eq_true_eq] at passes
          omega
        rw [List.filter_cons_of_neg (by simpa using above),
          List.filter_cons_of_neg (by simpa using above), ih rest, none, List.take_nil, List.take_nil]

namespace UsageMap

theorem mem_entries_of_uses {m : UsageMap} {name : String} (some : m.uses name ≠ []) :
    (name, m.uses name) ∈ m.entries := by
  rw [uses] at some ⊢
  cases found : m.entries.lookup name with
  | none => simp [found] at some
  | some uses =>
    obtain ⟨before, behind, shape, _⟩ := List.lookup_eq_some_iff.mp found
    rw [Option.getD_some, shape]
    exact List.mem_append_right _ List.mem_cons_self

end UsageMap

namespace ImpactReport

/-- A symbol comes before another one if it has more uses, or equally many and a name with smaller
bytes. -/
def Precedes (a b : String × Nat) : Prop :=
  b.2 < a.2 ∨ a.2 = b.2 ∧ Text.bytes a.1.toList < Text.bytes b.1.toList

instance (a b : String × Nat) : Decidable (Precedes a b) := inferInstanceAs (Decidable (_ ∨ _))

/-- All symbols with more than two recorded uses, each with their number, in order. -/
structure Ranking (usages : UsageMap) (ranked : List (String × Nat)) : Prop where
  exact : ∀ name n, (name, n) ∈ ranked ↔ n = (usages.uses name).length ∧ 2 < n
  ordered : ranked.Pairwise Precedes

/-- There is only one ranking. -/
theorem Ranking.eq {usages : UsageMap} {xs ys : List (String × Nat)} (one : Ranking usages xs)
    (other : Ranking usages ys) : xs = ys := by
  have asymm : ∀ {a b : String × Nat}, Precedes a b → ¬ Precedes b a := by
    rintro a b (more | ⟨same, less⟩) (more' | ⟨same', less'⟩)
    · omega
    · omega
    · omega
    · exact List.lt_asymm less less'
  have distinct : ∀ {zs : List (String × Nat)}, zs.Pairwise Precedes → zs.Nodup := by
    intro zs ordered
    refine ordered.imp ?_
    rintro a _ precedes rfl
    exact asymm precedes precedes
  have perm : xs.Perm ys :=
    (List.perm_ext_iff_of_nodup (distinct one.ordered) (distinct other.ordered)).mpr fun u =>
      (one.exact u.1 u.2).trans (other.exact u.1 u.2).symm
  exact perm.eq_of_pairwise (fun a b _ _ precedes follows => absurd follows (asymm precedes))
    one.ordered other.ordered

theorem mostUsed_perm (usages : UsageMap) :
    (mostUsed usages).Perm (usages.entries.map fun u => (u.1, u.2.length)) :=
  List.mergeSort_perm _ _

theorem mostUsed_descends (usages : UsageMap) :
    (mostUsed usages).Pairwise fun a b => b.2 ≤ a.2 := by
  have sorted := @List.pairwise_mergeSort (String × Nat) (fun a b => decide (b.2 ≤ a.2))
    (fun a b c => by simpa using fun first second => Nat.le_trans second first)
    (fun a b => by simpa using Nat.le_total _ _)
    (usages.entries.map fun u => (u.1, u.2.length))
  exact sorted.imp of_decide_eq_true

/-- Symbols with a given number of uses keep the order of their names. -/
theorem filter_mostUsed (usages : UsageMap) (n : Nat) :
    (mostUsed usages).filter (fun u => u.2 = n) =
      (usages.entries.map fun u => (u.1, u.2.length)).filter fun u => u.2 = n := by
  apply filter_mergeSort_of_level
  · exact fun a b c => by simpa using fun first second => Nat.le_trans second first
  · exact fun a b => by simpa using Nat.le_total _ _
  · intro a b here there
    simp only [decide_eq_true_eq] at here there ⊢
    exact Nat.le_of_eq (there.trans here.symm)

theorem mostUsed_ordered (usages : UsageMap) : (mostUsed usages).Pairwise Precedes := by
  have names : (usages.entries.map fun u => (u.1, u.2.length)).Pairwise fun a b => a.1 < b.1 :=
    List.pairwise_map.mpr usages.ordered
  rw [List.pairwise_iff_forall_sublist]
  intro a b pair
  have less := List.pairwise_iff_forall_sublist.mp (mostUsed_descends usages) pair
  rcases Nat.lt_or_eq_of_le less with fewer | same
  · exact .inl fewer
  · -- Both are among the symbols with as many uses, which stand in the order of the map.
    have level : [a, b].Sublist ((mostUsed usages).filter fun u => u.2 = a.2) := by
      simpa [same] using pair.filter fun u => u.2 = a.2
    rw [filter_mostUsed] at level
    have below := List.pairwise_iff_forall_sublist.mp names (level.trans List.filter_sublist)
    exact .inr ⟨same.symm, Text.bytes_lt (String.lt_iff.mp below)⟩

/-- The symbols that are used more than twice, with the most used first. -/
def frequent (usages : UsageMap) : List (String × Nat) :=
  (mostUsed usages).filter fun u => 2 < u.2

theorem frequent_ranking (usages : UsageMap) : Ranking usages (frequent usages) where
  exact name n := by
    rw [frequent, List.mem_filter, (mostUsed_perm usages).mem_iff, List.mem_map, decide_eq_true_eq]
    refine and_congr_left fun many => ?_
    constructor
    · rintro ⟨⟨symbol, uses⟩, member, shape⟩
      obtain ⟨rfl, rfl⟩ := Prod.mk.inj shape
      rw [UsageMap.uses_eq_of_mem member]
    · rintro rfl
      have some : usages.uses name ≠ [] := List.ne_nil_of_length_pos (by omega)
      exact ⟨_, UsageMap.mem_entries_of_uses some, rfl⟩
  ordered := (mostUsed_ordered usages).filter _

/-- The advice on a symbol with a number of uses. -/
def sentence (u : String × Nat) : String :=
  "'" ++ u.1 ++ "' is used " ++ toString u.2 ++ " times - changes will have wide effect"

theorem usageAdvice_eq (usages : UsageMap) :
    usageAdvice usages = ((frequent usages).take 3).map sentence := by
  rw [frequent, ← filter_take_of_descends (mostUsed_descends usages)]
  rfl

theorem head?_sentence (u : String × Nat) : (sentence u).toList.head? = some '\'' := by
  simp [sentence]

/-- A sentence tells the symbol and the number: the number is the last word before a fixed ending,
and a number has no blanks. -/
theorem sentence_inj {u v : String × Nat} (same : sentence u = sentence v) : u = v := by
  have shape : ∀ u : String × Nat, (sentence u).toList =
      (('\'' :: u.1.toList ++ "' is used".toList) ++ ' ' :: Nat.toDigits 10 u.2) ++
        " times - changes will have wide effect".toList := by
    intro u
    simp [sentence]
  have solid : ∀ n : Nat, ' ' ∉ Nat.toDigits 10 n := by
    intro n blank
    exact absurd (Nat.isDigit_of_mem_toDigits (by decide) (by decide) blank) (by decide)
  have chars := congrArg String.toList same
  rw [shape, shape] at chars
  have front := List.append_cancel_right chars
  have digits : Nat.toDigits 10 u.2 = Nat.toDigits 10 v.2 := by
    have last := congrArg (Text.lastPart ' ') front
    rwa [Text.lastPart_append _ (solid u.2), Text.lastPart_append _ (solid v.2)] at last
  have number : u.2 = v.2 := by
    rw [← Nat.ofDigitChars_toDigits (b := 10) (n := u.2) (by decide) (by decide), digits,
      Nat.ofDigitChars_toDigits (by decide) (by decide)]
  rw [digits] at front
  have name := List.append_cancel_right (List.append_cancel_right front)
  exact Prod.ext (String.toList_inj.mp (List.cons.inj name).2) number

/-- The suggestions name symbols by their uses: those that come first in the ranking, three of them
or all if they are fewer, and in its order. -/
structure NamesMostUsed (usages : UsageMap) (suggestions : List String) : Prop where
  named : ∃ others ranked, Ranking usages ranked ∧
    suggestions = others ++ (ranked.take 3).map sentence ∧ ∀ text ∈ others, ∀ u, text ≠ sentence u
  leftOut : ∀ name n other, sentence (name, n) ∈ suggestions →
    (∀ k, sentence (other, k) ∉ suggestions) → (usages.uses other).length ≤ n

/-- What is not among the first of a ranking is not used more often than what is. -/
theorem Ranking.uses_le {usages : UsageMap} {ranked : List (String × Nat)}
    (ranking : Ranking usages ranked) {k : Nat} {u : String × Nat} (first : u ∈ ranked.take k)
    {other : String} (absent : ∀ n, (other, n) ∉ ranked.take k) :
    (usages.uses other).length ≤ u.2 := by
  have most := (ranking.exact u.1 u.2).mp (List.mem_of_mem_take first)
  by_cases many : 2 < (usages.uses other).length
  · have listed : (other, (usages.uses other).length) ∈ ranked :=
      (ranking.exact other _).mpr ⟨rfl, many⟩
    rw [← List.take_append_drop k ranked] at listed
    have behind := (List.mem_append.mp listed).resolve_left (absent _)
    have ordered := ranking.ordered
    rw [← List.take_append_drop k ranked] at ordered
    rcases (List.pairwise_append.mp ordered).2.2 u first _ behind with fewer | ⟨equal, _⟩
    · exact Nat.le_of_lt fewer
    · exact Nat.le_of_eq equal.symm
  · omega

theorem namesMostUsed_of_ranking {usages : UsageMap} {ranked : List (String × Nat)}
    (ranking : Ranking usages ranked) {others : List String}
    (plain : ∀ text ∈ others, ∀ u, text ≠ sentence u) :
    NamesMostUsed usages (others ++ (ranked.take 3).map sentence) := by
  have named : ∀ u, sentence u ∈ others ++ (ranked.take 3).map sentence ↔ u ∈ ranked.take 3 := by
    intro u
    rw [List.mem_append, List.mem_map]
    constructor
    · rintro (other | ⟨v, member, same⟩)
      · exact absurd rfl (plain _ other u)
      · rwa [← sentence_inj same]
    · exact fun member => .inr ⟨u, member, rfl⟩
  refine ⟨⟨others, ranked, ranking, rfl, plain⟩, fun name n other said unsaid => ?_⟩
  apply ranking.uses_le ((named _).mp said)
  exact fun k member => unsaid k ((named _).mpr member)

/-- The advice of a report begins with sentences that name no symbol. -/
theorem advice_namesMostUsed (r : ImpactReport) : NamesMostUsed r.usages r.advice := by
  rw [advice, usageAdvice_eq]
  apply namesMostUsed_of_ranking (frequent_ranking r.usages)
  have told : ∀ {text : String}, text.toList.head? ≠ some '\'' → ∀ u, text ≠ sentence u := by
    rintro _ other u rfl
    exact other (head?_sentence u)
  intro text member
  apply told
  rcases List.mem_append.mp member with member | member
  · split at member
    · cases member
    · rw [List.mem_singleton.mp member, String.toList_append]
      simp
  · split at member
    · simp only [List.mem_cons, List.not_mem_nil, or_false] at member
      rcases member with rfl | rfl <;> decide
    · cases member

/-- Whatever comes too late and however its workers are scheduled, an analysis suggests what its
report advises. -/
theorem suggestions_eq_advice {e : Engine} {fs : Files} {file root : OsString} {change : Option String}
    {expired : Deadline} {schedule : Schedule} {r : ImpactReport}
    (succeeds : (e.analyzeImpact fs file root change expired schedule).result = .ok r) :
    r.suggestions = r.advice := by
  rw [Engine.analyzeImpact, Engine.result_recorded, Engine.impactReport] at succeeds
  cases read : Engine.readTarget fs file with
  | error cause => simp [read, bind, Except.bind, Except.map] at succeeds
  | ok source =>
    cases pair : Engine.locatePair fs file root with
    | error cause => simp [read, pair, bind, Except.bind, Except.map] at succeeds
    | ok places =>
      simp only [read, pair, bind, Except.bind, pure, Except.pure, Except.map, Except.ok.injEq]
        at succeeds
      subst succeeds
      rfl

/-- Advice on uses is given on the right symbols: every report names the first three of all symbols
with more than two recorded uses, ordered by their numbers and then by the bytes of their names, each
with its number; no symbol that is left out has more uses than one that is named. -/
theorem most_used_symbols_named :
    (∀ r : ImpactReport, NamesMostUsed r.usages r.advice) ∧
    ∀ (e : Engine) (fs : Files) (file root : OsString) (change : Option String) (expired : Deadline)
      (schedule : Schedule) (r : ImpactReport),
      (e.analyzeImpact fs file root change expired schedule).result = .ok r →
      NamesMostUsed r.usages r.suggestions := by
  refine ⟨advice_namesMostUsed, fun e fs file root change expired schedule r succeeds => ?_⟩
  rw [suggestions_eq_advice succeeds]
  exact advice_namesMostUsed r

section Tie

open Engine
open Ripple.Language (python)
open Language.Python

/-- A module with four functions. -/
def tiedModule : String := "def add(): 0\ndef get(): 0\ndef pop(): 0\ndef put(): 0\n"

/-- A file that uses one of the functions on four lines and each of the others on three. -/
def tiedUser : String :=
  "import util\nadd(get(pop(put)))\nadd(get(pop(put)))\nadd(get(pop(put)))\npop()\n"

def tiedProject : Files :=
  ⟨.dir [("app.py", .file tiedUser.toUTF8), ("util.py", .file tiedModule.toUTF8)], []⟩

theorem tiedProject_wellFormed : tiedProject.top.WellFormed :=
  Node.wellFormed_flat (by decide) (by decide) (by decide)

theorem tiedProject_resolves :
    Resolves tiedProject "util.py" "." tiedModule ["util.py"] [] where
  located := by decide
  readable := by decide
  rooted := by decide
  isDir := rfl

def tiedNames : List String := ["add", "get", "pop", "put"]

theorem tied_publicNames (name : String) :
    name ∈ publicNames (Extraction.exports tiedModule (some python)).items ↔ name ∈ tiedNames := by
  have functions : ExportRule.hits ⟨functionPattern, .function, .noLeadingUnderscore⟩
      tiedModule.toList (.ofText tiedModule.toList) =
        [⟨"add", .function, 1, true⟩, ⟨"get", .function, 2, true⟩, ⟨"pop", .function, 3, true⟩,
          ⟨"put", .function, 4, true⟩] := by
    rw [functionPattern, Pattern.ofText_eq rfl]
    decide +kernel
  have classes : ExportRule.hits ⟨classPattern, .type, .noLeadingUnderscore⟩
      tiedModule.toList (.ofText tiedModule.toList) = [] := by
    rw [classPattern, Pattern.ofText_eq rfl]
    decide +kernel
  have constants : ExportRule.hits ⟨constantPattern, .constant, .noLeadingUnderscore⟩
      tiedModule.toList (.ofText tiedModule.toList) = [] := by
    rw [constantPattern, Pattern.ofText_eq rfl]
    decide +kernel
  have items : (Extraction.exports tiedModule (some python)).items.Perm
      [⟨"add", .function, 1, true⟩, ⟨"get", .function, 2, true⟩, ⟨"pop", .function, 3, true⟩,
        ⟨"put", .function, 4, true⟩] := by
    refine (Export.inLineOrder_perm _).trans (.of_eq ?_)
    simp only [Language.exportHits, List.flatMap_cons, functions, classes, constants]
    rfl
  rw [publicNames, Text.mem_ascending]
  exact ((items.filter _).map _).mem_iff

theorem tied_dependents {files : List OsString} {scanned : Nat}
    (reports : Engine.Reports ⟨{}, .builtin⟩ tiedProject [] ["util.py"] files scanned) :
    files = [("app.py" : OsString)] := by
  have imported : (⟨"util", .internal⟩ : Import) ∈ python.imports tiedUser := by
    refine (Language.mem_imports_iff rfl).mpr ⟨by decide, _, .tail _ (.head _), ?_⟩
    rw [ImportRule.modules, Pattern.matchesOf, importPattern_regex]
    decide +kernel
  obtain ⟨patterns, compiled, found⟩ : ∃ patterns, python.dependencyPatterns "util" = .ok patterns ∧
      imports "util" patterns tiedUser = true :=
    Language.imports_of_names imported (.python (by decide) (by decide))
      (by rintro (same | same | same) <;> exact absurd (congrArg Language.name same) (by decide))
      (by decide)
  refine eq_of_ascending (List.pairwise_map.mp reports.ascends) (List.pairwise_singleton _ _) ?_
  intro path
  rw [reports.mem_iff, List.mem_singleton]
  constructor
  · rintro ⟨below, candidate, rfl, _⟩
    obtain ⟨⟨content, stands⟩, _, differs⟩ := candidate_is_file tiedProject_wellFormed candidate
    rcases Node.at?_flat (by decide) stands with ⟨_, whole⟩ | ⟨name, shape, entry⟩
    · cases whole
    · rw [List.nil_append] at shape differs
      subst shape
      simp only [List.mem_cons, List.not_mem_nil, or_false, Prod.mk.injEq] at entry
      rcases entry with ⟨rfl, _⟩ | ⟨rfl, _⟩
      · decide
      · exact absurd rfl differs
  · rintro rfl
    refine ⟨["app.py"], List.mem_filter.mpr ⟨?_, by decide⟩, by decide, "util", .python, _,
      patterns, by decide, rfl, by decide, compiled, imports_iff.mp found⟩
    refine (Files.mem_walk_iff tiedProject_wellFormed).mpr ⟨⟨_, rfl, by decide⟩, ?_, trivial⟩
    rintro node stands
    cases stands
    decide

theorem tied_lines : usableLines ⟨{}, .builtin⟩ tiedProject [] "app.py" =
    [(2, "add(get(pop(put)))".toList), (3, "add(get(pop(put)))".toList),
      (4, "add(get(pop(put)))".toList), (5, "pop()".toList)] := by
  have spans : python.importSpans tiedUser = [(0, 11)] := by
    have froms : ImportRule.spans ⟨fromPattern, .list⟩ tiedUser.toList = [] := by
      rw [fromPattern, Pattern.ofText_eq rfl]
      decide +kernel
    have plain : ImportRule.spans ⟨importPattern, .list⟩ tiedUser.toList = [(0, 11)] := by
      rw [importPattern, Pattern.ofText_eq (Pattern.joined rfl rfl)]
      decide +kernel
    have blocks : ImportRule.spans ⟨blockPattern, .extent⟩ tiedUser.toList = [] := by
      rw [blockPattern, Pattern.ofText_eq rfl]
      decide +kernel
    simp [Language.importSpans, python, froms, plain, blocks]
  have lines : python.importLines tiedUser = [1] := by
    rw [Language.importLines, spans]
    decide +kernel
  have read : tiedProject.readText (Path.join (Files.pathOf []) "app.py") = .ok tiedUser := by
    decide
  have known : LanguageTable.builtin.ofPath? (Path.join (Files.pathOf []) "app.py") =
      some python := rfl
  simp only [usableLines, read, known, lines]
  decide +kernel

def tiedRanking : List (String × Nat) := [("pop", 4), ("add", 3), ("get", 3), ("put", 3)]

theorem tied_uses : ∀ u ∈ tiedRanking,
    (usesAcross ⟨{}, .builtin⟩ tiedProject [] ["app.py"] u.1).length = u.2 := by
  simp only [usesAcross, List.flatMap_cons, List.flatMap_nil, tied_lines]
  decide +kernel

theorem tied_ranking {usages : UsageMap} (uses : ∀ name, usages.uses name =
      if name ∈ tiedNames then usesAcross ⟨{}, .builtin⟩ tiedProject [] ["app.py"] name else []) :
    Ranking usages tiedRanking where
  exact name n := by
    constructor
    · intro listed
      have named : ∀ u ∈ tiedRanking, u.1 ∈ tiedNames ∧ 2 < u.2 := by decide
      obtain ⟨known, many⟩ := named _ listed
      rw [uses, if_pos known]
      exact ⟨(tied_uses _ listed).symm, many⟩
    · rintro ⟨rfl, many⟩
      by_cases known : name ∈ tiedNames
      · have ranked : ∀ name ∈ tiedNames, ∃ u ∈ tiedRanking, u.1 = name := by decide
        obtain ⟨u, listed, rfl⟩ := ranked name known
        rwa [uses, if_pos known, tied_uses u listed]
      · rw [uses, if_neg known] at many
        contradiction
  ordered := by decide

/-- Of three functions that are used on equally many lines, the last one is not named, for another
function is used more often. -/
theorem most_used_symbols_named_tied : ∃ r : ImpactReport,
    (analyzeImpact ⟨{}, .builtin⟩ tiedProject "util.py" "." none).result = .ok r ∧
    NamesMostUsed r.usages r.suggestions ∧ (r.usages.uses "put").length = 3 ∧
    ∃ others, r.suggestions = others ++ [("pop", 4), ("add", 3), ("get", 3)].map sentence ∧
      ∀ text ∈ others, ∀ u, text ≠ sentence u := by
  obtain ⟨r, succeeds, describes⟩ := tiedProject_resolves.exists_report (e := ⟨{}, .builtin⟩) rfl
    tiedProject_wellFormed none
  have names := most_used_symbols_named.2 _ _ _ _ _ _ _ r succeeds
  have uses : ∀ name, r.usages.uses name = if name ∈ tiedNames then
      usesAcross ⟨{}, .builtin⟩ tiedProject [] ["app.py"] name else [] := by
    intro name
    rw [describes.usages, uses_trackUsages, tied_dependents describes.reports, describes.exports]
    exact if_congr (tied_publicNames name) rfl rfl
  obtain ⟨others, ranked, ranking, suggested, plain⟩ := names.named
  obtain rfl := ranking.eq (tied_ranking uses)
  have put := (ranking.exact "put" 3).mp (by decide)
  exact ⟨r, succeeds, names, put.1.symm, others, suggested, plain⟩

end Tie

end ImpactReport

end Ripple
