import Ripple.Language.Definition
import Ripple.Proofs.Regex.Mirroring

/-!
Where the holes of a template may stand. A definition is tried with one sample name. If each hole
stands where an item of the pattern may begin, then what is read with any other name mirrors what was
read with the sample, and so every name can be put in. In other places, such as the name of a group,
a template may be fine with the sample and fail with another name.
-/

namespace Ripple

namespace Text

variable {c : Char} {part new front rest : List Char}

/-- What holds no occurrence is kept up to where one begins. -/
theorem replaceFrom_front (first : c ∉ part) (apart : ¬ (c :: part) <:+: front)
    (begins : ∀ d ∈ rest.head?, d = c) :
    replaceFrom (c :: part) new 0 (front ++ rest) =
      front ++ replaceFrom (c :: part) new 0 rest := by
  induction front with
  | nil => rfl
  | cons d front ih =>
    have misses : (c :: part).isPrefixOf (d :: (front ++ rest)) = false := by
      rw [Bool.eq_false_iff, ne_eq, List.isPrefixOf_iff_prefix]
      intro occurs
      rcases List.prefix_or_prefix_of_prefix occurs
        (List.prefix_append (d :: front) rest) with within | ⟨tail, across⟩
      · exact apart within.isInfix
      -- An occurrence that goes on where the next one begins would hold its first character twice.
      · cases tail with
        | nil =>
          rw [List.append_nil] at across
          rw [across] at apart
          exact apart (List.infix_refl _)
        | cons e tail =>
          rw [← across, ← List.cons_append, List.prefix_append_right_inj] at occurs
          obtain ⟨more, rfl⟩ := occurs
          obtain rfl := begins e (by simp)
          exact first ((List.cons.inj across).2 ▸ by simp)
    have further := ih fun within => apart (within.trans (List.suffix_cons d front).isInfix)
    simp only [List.cons_append, replaceFrom, misses, Bool.false_eq_true, if_false, further]

theorem replaceFrom_skip (skip text : List Char) :
    replaceFrom (c :: part) new skip.length (skip ++ text) = replaceFrom (c :: part) new 0 text := by
  induction skip with
  | nil => rfl
  | cons d skip ih => exact ih

/-- Every occurrence of a text is replaced, if its first character does not come up in it again. -/
theorem replace_pieces {pieces : List (List Char)} (first : c ∉ part)
    (apart : ¬ (c :: part) <:+: front) (others : ∀ p ∈ pieces, ¬ (c :: part) <:+: p) :
    replace (c :: part) new (front ++ pieces.flatMap ((c :: part) ++ ·)) =
      front ++ pieces.flatMap (new ++ ·) := by
  rw [replace, replaceFrom_front first apart]
  · congr 1
    induction pieces with
    | nil => rfl
    | cons p pieces ih =>
      simp only [List.mem_cons, forall_eq_or_imp] at others
      -- The next occurrence, if there is one, begins right behind the piece.
      have begins : ∀ d ∈ (pieces.flatMap ((c :: part) ++ ·)).head?, d = c := by
        cases pieces <;> simp
      rw [List.flatMap_cons, List.append_assoc, List.cons_append, replaceFrom, if_pos (by simp),
        List.length_cons, Nat.add_sub_cancel, replaceFrom_skip,
        replaceFrom_front first others.1 begins, ih others.2, List.flatMap_cons, List.append_assoc]
  · cases pieces <;> simp

end Text

namespace Language

open Regex Reader

/-- The name with which definitions are tried. -/
def sample : List Char := "module".toList

/-- The pieces of a template between its holes, read one after another with the sample in the holes.
Each piece before a hole ends where an item may begin, and not where blanks are passed over. -/
inductive Opens : Reader → List Char → List (List Char) → Reader → Prop
  | last {r last : Reader} {front : List Char} : Passes [] r front last → Opens r front [] last
  | hole {r next last : Reader} {front piece : List Char} {pieces : List (List Char)} :
      (∀ more, Fresh more → Passes more r front next) → next.verbose = false →
      Opens (next.named sample) piece pieces last → Opens r front (piece :: pieces) last

/-- A template all of whose holes are open. -/
def Open (t : String) : Prop :=
  ∃ front pieces last, t.toList = front ++ pieces.flatMap (placeholder ++ ·) ∧
    ¬ placeholder <:+: front ∧ (∀ p ∈ pieces, ¬ placeholder <:+: p) ∧
    Opens .initial front pieces last

theorem fresh_of_name {name : List Char} (some : name ≠ []) (cs : List Char) :
    Fresh (escaped name ++ cs) := by
  obtain ⟨c, name, rfl⟩ := List.exists_cons_of_ne_nil some
  have front := @escaped_fresh (c :: name) [] ⟨by simp, by simp⟩
  have nonempty : escaped (c :: name) ≠ [] := by
    rw [escaped, List.flatMap_cons]
    split <;> simp
  rw [List.append_nil] at front
  rwa [Fresh, List.head?_append_of_ne_nil _ nonempty]

/-- A hole is read as the name in it, with as many steps left as its escapes had. -/
theorem run_hole {r : Reader} (plain : r.verbose = false) (name rest : List Char) (d : Nat) :
    run (d + (escaped name ++ rest).length) r (escaped name ++ rest) =
      run (d + ((escaped name).length - name.length) + rest.length) (r.named name) rest := by
  have longer := length_le_escaped name
  have count : d + (escaped name ++ rest).length =
      (d + ((escaped name).length - name.length) + rest.length) + name.length := by
    rw [List.length_append]
    omega
  rw [count, run_named plain]

/-- With the sample in the holes the pieces are read as is said. -/
theorem Opens.run_sample {r last : Reader} {front : List Char} {pieces : List (List Char)}
    (opens : Opens r front pieces last) (d : Nat) :
    run (d + (front ++ pieces.flatMap (escaped sample ++ ·)).length) r
      (front ++ pieces.flatMap (escaped sample ++ ·)) = .ok last := by
  induction opens generalizing d with
  | @last r last front passes =>
    obtain ⟨unused, reads⟩ := passes.run
    rw [List.flatMap_nil, List.length_append, List.length_nil, Nat.add_zero, reads, run_nil]
  | @hole r next last front piece pieces passes plain _ ih =>
    have fresh := @fresh_of_name sample (by decide)
      (piece ++ pieces.flatMap (escaped sample ++ ·))
    obtain ⟨unused, reads⟩ := (passes _ fresh).run
    rw [List.flatMap_cons, List.append_assoc, List.length_append, Nat.add_comm front.length,
      ← Nat.add_assoc, reads, Nat.add_right_comm, run_hole plain, ih]

/-- With any other name in them they are read by a reader that mirrors that of the sample. -/
theorem Opens.run_name {r s last : Reader} {front : List Char} {pieces : List (List Char)}
    (opens : Opens r front pieces last) (mirrors : r.Mirrors s) {name : List Char}
    (some : name ≠ []) : ∃ last', last.Mirrors last' ∧ ∀ d,
      run (d + (front ++ pieces.flatMap (escaped name ++ ·)).length) s
        (front ++ pieces.flatMap (escaped name ++ ·)) = .ok last' := by
  induction opens generalizing s with
  | @last r last front passes =>
    obtain ⟨last', ends, passes'⟩ := passes.mirrored mirrors
    obtain ⟨unused, reads⟩ := passes'.run
    refine ⟨last', ends, fun d => ?_⟩
    rw [List.flatMap_nil, List.length_append, List.length_nil, Nat.add_zero, reads, run_nil]
  | @hole r next last front piece pieces passes plain _ ih =>
    -- Up to the hole both readers take the same steps. Behind it the last items of one are those of
    -- the sample, and those of the other are those of the name.
    have fresh := fresh_of_name some (piece ++ pieces.flatMap (escaped name ++ ·))
    obtain ⟨next', ends, passes'⟩ := (passes _ fresh).mirrored mirrors
    obtain ⟨unused, reads⟩ := passes'.run
    obtain ⟨last', ends', further⟩ := ih (ends.named (a := sample) (by decide) some)
    refine ⟨last', ends', fun d => ?_⟩
    rw [List.flatMap_cons, List.append_assoc, List.length_append, Nat.add_comm front.length,
      ← Nat.add_assoc, reads, Nat.add_right_comm, run_hole (ends.verbose ▸ plain), further]

theorem toList_fill_pieces {t : String} {front : List Char} {pieces : List (List Char)}
    (text : t.toList = front ++ pieces.flatMap (placeholder ++ ·))
    (apart : ¬ placeholder <:+: front) (others : ∀ p ∈ pieces, ¬ placeholder <:+: p)
    (new : String) : (fill t new).toList = front ++ pieces.flatMap (new.toList ++ ·) := by
  rw [fill, String.toList_ofList, text]
  exact @Text.replace_pieces '\x7b' "name\x7d".toList _ _ _ (by decide) apart others

/-- A pattern is a tree that is read from the text and stands for an expression. -/
theorem exists_tree {source : String} {p : Pattern} (compiled : Pattern.compile source = .ok p) :
    ∃ tree mode, Tree.parse source.toList = .ok tree ∧ tree.after {} = .ok mode := by
  rw [Pattern.compile, Pattern.compileChars] at compiled
  cases parsed : Tree.parse source.toList with
  | error e => simp [parsed, bind, Except.bind] at compiled
  | ok tree =>
    cases expression : tree.toRegex {} with
    | error e => simp [parsed, expression, bind, Except.bind] at compiled
    | ok found => exact ⟨tree, found.2, rfl, by rw [Tree.after, expression]; rfl⟩

theorem compile_tree {source : String} {tree : Tree} {mode : Mode}
    (parsed : Tree.parse source.toList = .ok tree) (after : tree.after {} = .ok mode) :
    (∃ p, Pattern.compile source = .ok p) ∨ Pattern.compile source = .error .tooBig := by
  rw [Tree.after] at after
  cases expression : tree.toRegex {} with
  | error e => simp [expression, Except.map] at after
  | ok found =>
    simp only [Pattern.compile, Pattern.compileChars, parsed, expression, bind, Except.bind]
    split
    · exact .inr rfl
    · exact .inl ⟨_, rfl⟩

/-- A reader that mirrors one that has read a pattern has read a pattern, too. -/
theorem parse_mirrored {text text' : List Char} {last last' : Reader} {tree : Tree}
    (read : run text.length .initial text = .ok last)
    (read' : run text'.length .initial text' = .ok last') (mirrors : last.Mirrors last')
    (parsed : Tree.parse text = .ok tree) :
    ∃ tree', Tree.parse text' = .ok tree' ∧ tree.Mirrors tree' := by
  simp only [Tree.parse, read, bind, Except.bind] at parsed
  cases finished : last.finish with
  | error e => simp [finished] at parsed
  | ok t =>
    obtain ⟨u, finished', same⟩ := mirrors.finish finished
    simp only [finished] at parsed
    split at parsed
    next shallow =>
      cases parsed
      refine ⟨u, ?_, same⟩
      -- The mirrored tree is no deeper, so it keeps within the limit.
      simp only [Tree.parse, read', finished', bind, Except.bind,
        if_pos (Nat.le_trans same.depth_le shallow)]
      rfl
    next => cases parsed

/-- A template with open holes that is a pattern with the sample is one with any name, unless that
makes it too big. -/
theorem compile_of_open {t : String} (opened : Open t) {p : Pattern}
    (tried : Pattern.compile (fill t "module") = .ok p) {name : String} (some : name ≠ "") :
    (∃ q, Pattern.compile (fill t (Pattern.escape name)) = .ok q) ∨
      Pattern.compile (fill t (Pattern.escape name)) = .error .tooBig := by
  obtain ⟨front, pieces, last, text, apart, others, opens⟩ := opened
  have sampled := opens.run_sample 0
  have nonempty : name.toList ≠ [] := fun none => some (String.toList_injective none)
  obtain ⟨last', mirrors, named⟩ := opens.run_name .initial nonempty
  have read := named 0
  have plain : escaped sample = "module".toList := by decide
  have escaping : (Pattern.escape name).toList = escaped name.toList := by
    rw [Pattern.escape, String.toList_ofList]
    rfl
  -- What was read is the template with the sample, and the template with the name.
  rw [Nat.zero_add, plain, ← toList_fill_pieces text apart others "module"] at sampled
  rw [Nat.zero_add, ← escaping, ← toList_fill_pieces text apart others (Pattern.escape name)] at read
  obtain ⟨tree, mode, parsed, after⟩ := exists_tree tried
  obtain ⟨tree', parsed', same⟩ := parse_mirrored sampled read mirrors parsed
  exact compile_tree parsed' ((same.after_eq {}).symm.trans after)

theorem compile_of_checked {t : String} (checked : LanguageDefinition.checkTemplate t = .ok ()) :
    ∃ p, Pattern.compile (fill t "module") = .ok p := by
  rw [LanguageDefinition.checkTemplate] at checked
  split at checked
  next =>
    cases compiled : Pattern.compile (fill t "module") with
    | ok p => exact ⟨p, rfl⟩
    | error e =>
      simp [LanguageDefinition.readPattern, compiled, bind, Except.bind] at checked
  next => cases checked

theorem checked_of_forM {templates : List String}
    (checked : templates.forM LanguageDefinition.checkTemplate = .ok ()) :
    ∀ t ∈ templates, LanguageDefinition.checkTemplate t = .ok () := by
  induction templates with
  | nil => simp
  | cons t templates ih =>
    rw [List.forM] at checked
    cases here : LanguageDefinition.checkTemplate t with
    | error e => simp [here, bind, Except.bind] at checked
    | ok =>
      simp only [here, bind, Except.bind] at checked
      exact List.forall_mem_cons.mpr ⟨here, ih checked⟩

/-- Every pattern of an accepted definition could be read, and the language has what was read. -/
theorem eq_of_compile {d : LanguageDefinition} {l : Language} (accepted : d.compile = .ok l) :
    ∃ exports imports, d.exportPatterns.mapM LanguageDefinition.readExport = .ok exports ∧
      d.importPatterns.mapM LanguageDefinition.readImport = .ok imports ∧
      d.dependencyPatterns.forM LanguageDefinition.checkTemplate = .ok () ∧
      l = {
        name := d.name
        extensions := d.extensions.map normalExtension
        exportRules := if exports.isEmpty then none else some exports
        exportGroups := []
        importRules := imports
        localImportRules := []
        templates := d.dependencyPatterns
        classify := LanguageDefinition.classify d.stdlib } := by
  rw [LanguageDefinition.compile] at accepted
  split at accepted
  next => cases accepted
  next =>
    split at accepted
    next => cases accepted
    next =>
      -- One pattern after another could be read, or the definition would have been refused.
      cases exports : d.exportPatterns.mapM LanguageDefinition.readExport with
      | error => simp [exports, bind, Except.bind] at accepted
      | ok rules =>
        cases imports : d.importPatterns.mapM LanguageDefinition.readImport with
        | error => simp [exports, imports, bind, Except.bind] at accepted
        | ok rules' =>
          cases checked : d.dependencyPatterns.forM LanguageDefinition.checkTemplate with
          | error => simp [exports, imports, checked, bind, Except.bind] at accepted
          | ok =>
            simp only [exports, imports, checked, bind, Except.bind, pure, Except.pure,
              Except.ok.injEq] at accepted
            exact ⟨rules, rules', rfl, rfl, rfl, accepted.symm⟩

/-- An accepted definition gives its templates to the language, each of them checked. -/
theorem templates_of_compile {d : LanguageDefinition} {l : Language} (accepted : d.compile = .ok l) :
    l.templates = d.dependencyPatterns ∧
      ∀ t ∈ d.dependencyPatterns, LanguageDefinition.checkTemplate t = .ok () := by
  obtain ⟨_, _, _, _, checked, rfl⟩ := eq_of_compile accepted
  exact ⟨rfl, checked_of_forM checked⟩

/-- An accepted definition whose holes are open never fails later: whatever name is put into its
templates, they are patterns, unless the name makes one of them too big. -/
theorem open_templates_never_fail {d : LanguageDefinition} {l : Language}
    (accepted : d.compile = .ok l) (opened : ∀ t ∈ d.dependencyPatterns, Open t) {name : String}
    (some : name ≠ "") :
    (∃ patterns, l.dependencyPatterns name = .ok patterns) ∨
      l.dependencyPatterns name = .error .tooBig := by
  obtain ⟨templates, checked⟩ := templates_of_compile accepted
  rw [dependencyPatterns, compileTemplates, templates]
  clear accepted templates
  generalize d.dependencyPatterns = ts at opened checked
  induction ts with
  | nil => exact .inl ⟨[], rfl⟩
  | cons t ts ih =>
    simp only [List.mem_cons, forall_eq_or_imp] at opened checked
    obtain ⟨p, tried⟩ := compile_of_checked checked.1
    rw [List.mapM_cons]
    -- The first template that becomes too big decides, and none is refused for another reason.
    rcases compile_of_open opened.1 tried some with ⟨q, compiled⟩ | tooBig
    · rcases ih opened.2 checked.2 with ⟨patterns, rest⟩ | tooBig
      · exact .inl ⟨q :: patterns, by rw [compiled, rest]; rfl⟩
      · exact .inr (by rw [compiled, tooBig]; rfl)
    · exact .inr (by rw [tooBig]; rfl)

/-- A language whose imports hold the name of the module twice. -/
def pathLanguage : LanguageDefinition where
  name := "Path"
  extensions := ["path"]
  dependencyPatterns := ["use (?:\x7bname\x7d::)+\x7bname\x7d;"]

theorem pathLanguage_open : ∀ t ∈ pathLanguage.dependencyPatterns, Open t := by
  intro t member
  obtain rfl := List.mem_singleton.mp member
  let before := (literals ['u', 's', 'e', ' ']).reverse
  let within : Reader := ⟨[⟨[], before, .plain ⟨[], []⟩, false⟩], [], [], false, 1, []⟩
  let behind : Reader := ⟨[], [], .rep (.group (.plain ⟨[], []⟩)
    (.cat (literals ['m', 'o', 'd', 'u', 'l', 'e', ':', ':']))) 1 none true :: before, false, 1, []⟩
  refine ⟨['u', 's', 'e', ' ', '(', '?', ':'], [[':', ':', ')', '+'], [';']],
    (behind.named sample).push (.literal ⟨';', false⟩),
    by decide +kernel, by decide +kernel, by decide +kernel,
    @Opens.hole _ within _ _ _ _ (fun more fresh => ?first) rfl
      (@Opens.hole _ behind _ _ _ _ (fun more fresh => ?second) rfl (.last ?third))⟩
  case first =>
    exact .step rfl rfl (by decide) (.step rfl rfl (by decide) (.step rfl rfl (by decide)
      (.step rfl rfl (by decide) (.step rfl rfl (by decide) .done))))
  case second =>
    refine .step rfl rfl (by decide) (.step rfl rfl (by decide) (.step rfl rfl (by decide)
      (@Passes.step _ _ _ _ _ _ _ [] rfl ?_ (by decide) .done)))
    exact uncounted_greedy (by simp) _ _ _ _ _ _ _ fresh.1
  case third => exact .step rfl rfl (by decide) .done

/-- A name full of signs is as good as the sample. -/
theorem open_templates_never_fail_path : ∃ l, pathLanguage.compile = .ok l ∧
    ((∃ patterns, l.dependencyPatterns "a-b.(c" = .ok patterns) ∨
      l.dependencyPatterns "a-b.(c" = .error .tooBig) := by
  have accepted : pathLanguage.compile.toBool = true := by decide +kernel
  cases compiled : pathLanguage.compile with
  | error e => simp [compiled, Except.toBool] at accepted
  | ok l => exact ⟨l, rfl, open_templates_never_fail compiled pathLanguage_open (by decide)⟩

/-- A language that names a group after the module. -/
def groupLanguage : LanguageDefinition where
  name := "Group"
  extensions := ["group"]
  dependencyPatterns := ["(?P<\x7bname\x7d>x)"]

/-- In the name of a group the sample is fine, and a name with a hyphen is not: an accepted
definition fails later. -/
theorem accepted_template_fails : ∃ l, groupLanguage.compile = .ok l ∧
    l.dependencyPatterns "a-b" = .error .groupNameInvalid := by
  have accepted : groupLanguage.compile.toBool = true := by decide +kernel
  cases compiled : groupLanguage.compile with
  | error e => simp [compiled, Except.toBool] at accepted
  | ok l =>
    refine ⟨l, rfl, ?_⟩
    rw [dependencyPatterns, (templates_of_compile compiled).1]
    rfl

end Language

end Ripple
