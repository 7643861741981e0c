import Ripple.Proofs.Files.Listing

/-!
What ignore files change in a walk. An entry is ruled by the nearest ignore file that speaks of it,
and within that file by the last rule that does. A rule that does not keep its entry takes it from
the listing; a rule that keeps it counts more than the dot at the beginning of a hidden name. So a
walk with ignore files may list more than one without them, namely hidden files that are kept.
-/

namespace Ripple

open Node Ripple.Path

namespace IgnoreRule

/-- A rule speaks of a path, which is relative to the directory of its file. -/
def Speaks (r : IgnoreRule) (path : OsString) (isDir : Bool) : Prop :=
  (r.dirsOnly = true → isDir = true) ∧ r.glob.isMatch path = true

/-- Of the rules in a file, the last one that speaks of a path decides. -/
def Decides (rules : List IgnoreRule) (path : OsString) (isDir : Bool) (r : IgnoreRule) : Prop :=
  ∃ before behind, rules = before ++ r :: behind ∧ r.Speaks path isDir ∧
    ∀ s ∈ behind, ¬ s.Speaks path isDir

/-- What a rule says of the paths that it speaks of. -/
def verdict (r : IgnoreRule) : Verdict := if r.keeps then .kept else .ignored

theorem verdict_eq_kept_iff {r : IgnoreRule} : r.verdict = .kept ↔ r.keeps = true := by
  cases keeps : r.keeps <;> simp [verdict, keeps]

theorem verdict_ne_ignored_iff {r : IgnoreRule} : r.verdict ≠ .ignored ↔ r.keeps = true := by
  cases keeps : r.keeps <;> simp [verdict, keeps]

theorem speaks_iff {r : IgnoreRule} {path : OsString} {isDir : Bool} :
    ((isDir || !r.dirsOnly) && r.glob.isMatch path) = true ↔ r.Speaks path isDir := by
  cases isDir <;> cases dirs : r.dirsOnly <;> simp [Speaks, dirs]

theorem verdict?_eq_some_iff {rules : List IgnoreRule} {path : OsString} {isDir : Bool}
    {v : Verdict} :
    verdict? rules path isDir = some v ↔ ∃ r, Decides rules path isDir r ∧ r.verdict = v := by
  simp only [verdict?, Option.map_eq_some_iff, List.find?_eq_some_iff_append, speaks_iff,
    Bool.not_eq_true', Bool.eq_false_iff, ne_eq]
  refine exists_congr fun r => and_congr_left fun _ => ?_
  constructor
  · rintro ⟨speaks, later, earlier, order, silent⟩
    refine ⟨earlier.reverse, later.reverse, ?_, speaks, fun s member => ?_⟩
    · simpa using congrArg List.reverse order
    · exact silent s (List.mem_reverse.mp member)
  · rintro ⟨before, behind, rfl, speaks, silent⟩
    exact ⟨speaks, behind.reverse, before.reverse, by simp,
      fun s member => silent s (List.mem_reverse.mp member)⟩

theorem verdict?_eq_none_iff {rules : List IgnoreRule} {path : OsString} {isDir : Bool} :
    verdict? rules path isDir = none ↔ ∀ r ∈ rules, ¬ r.Speaks path isDir := by
  simp only [verdict?, Option.map_eq_none_iff, List.find?_eq_none, List.mem_reverse, speaks_iff]

end IgnoreRule

open IgnoreRule

/-- An entry is taken into account unless a verdict takes it away or it is hidden and not kept, and
unless it is a directory to be skipped. -/
theorem WalkFilter.admits_iff {f : WalkFilter} {scopes : List IgnoreScope} {here : List OsString}
    {name : OsString} {node : Node} :
    f.admits scopes (here ++ [name]) node = true ↔
      verdict? scopes (here ++ [name]) (decide (node.kind = .dir)) ≠ some .ignored ∧
      (name.bytes.head? = some dot →
        verdict? scopes (here ++ [name]) (decide (node.kind = .dir)) = some .kept) ∧
      (node.kind = .dir → name ∉ f.skipNames) := by
  rw [← skips_iff]
  cases node with
  | file | link =>
    simp only [admits, kind, List.getLast?_concat, Option.getD_some, reduceCtorEq, decide_false]
    rcases verdict? scopes (here ++ [name]) false with _ | _ | _ <;> simp
  | dir entries =>
    simp only [admits, kind, List.getLast?_concat, Option.getD_some, decide_true]
    rcases verdict? scopes (here ++ [name]) true with _ | _ | _ <;> simp

namespace Files

/-- A rule decides about the entry with a name in a directory below a root: it is the deciding one of
an ignore file in this directory or above it, and no ignore file in between speaks of the entry. -/
def Rules (fs : Files) (root here : List OsString) (name : OsString) (isDir : Bool)
    (r : IgnoreRule) : Prop :=
  ∃ n ≤ here.length,
    Decides (fs.ignoreRules (root ++ here.take n)) (ofComponents ((here ++ [name]).drop n)) isDir r ∧
    ∀ m, n < m → m ≤ here.length → ∀ s ∈ fs.ignoreRules (root ++ here.take m),
      ¬ s.Speaks (ofComponents ((here ++ [name]).drop m)) isDir

/-- The verdict of the ignore files in and above a directory is that of the rule that decides. -/
theorem verdict?_scopesOf {fs : Files} {f : WalkFilter} (honours : f.honourIgnoreFiles = true)
    {root here : List OsString} {name : OsString} {isDir : Bool} {v : Verdict} :
    WalkFilter.verdict? (fs.scopesOf f root here) (here ++ [name]) isDir = some v ↔
      ∃ r, fs.Rules root here name isDir r ∧ r.verdict = v := by
  simp only [WalkFilter.verdict?, scopesOf, honours, if_true, List.findSome?_map]
  rw [List.findSome?_eq_some_iff]
  simp only [Function.comp_apply, verdict?_eq_some_iff, verdict?_eq_none_iff]
  constructor
  · rintro ⟨nearer, n, above, order, ⟨r, decides, told⟩, silent⟩
    -- The directories are asked from the entry upwards, so those asked before are the nearer ones.
    have ascending : List.range (here.length + 1) = above.reverse ++ n :: nearer.reverse := by
      simpa using congrArg List.reverse order
    have known : n ∈ List.range (here.length + 1) := by simp [ascending]
    refine ⟨r, ⟨n, by simpa [Nat.lt_succ_iff] using known, decides, fun m between inside => ?_⟩, told⟩
    have listed : m ∈ List.range (here.length + 1) := by simpa [Nat.lt_succ_iff] using inside
    have sorted := List.pairwise_lt_range (n := here.length + 1)
    rw [ascending] at listed sorted
    rcases List.mem_append.mp listed with further | nearOrSame
    · have := (List.pairwise_append.mp sorted).2.2 m further n List.mem_cons_self
      omega
    · rcases List.mem_cons.mp nearOrSame with rfl | near
      · omega
      · exact silent m (List.mem_reverse.mp near)
  · rintro ⟨r, ⟨n, inside, decides, silent⟩, told⟩
    have split : List.range (here.length + 1) =
        List.range n ++ n :: List.range' (n + 1) (here.length - n) := by
      have joined := @List.range'_append_1 0 n (here.length - n + 1)
      rw [Nat.zero_add, List.range'_succ, ← List.range_eq_range', ← List.range_eq_range'] at joined
      rw [joined]
      congr 1
      omega
    refine ⟨(List.range' (n + 1) (here.length - n)).reverse, n, (List.range n).reverse, ?_,
      ⟨r, decides, told⟩, fun m member => ?_⟩
    · simp [split]
    · have bounds := List.mem_range'_1.mp (List.mem_reverse.mp member)
      exact silent m (by omega) (by omega)

/-- What a step towards a place below a directory needs, if ignore files count. -/
structure Passes (fs : Files) (skipNames root here : List OsString) (name : OsString)
    (rest : List OsString) : Prop where
  /-- No rule takes the entry away. -/
  allowed : ∀ r, fs.Rules root here name (!rest.isEmpty) r → r.keeps = true
  /-- A hidden entry is kept by a rule. -/
  shown : name.bytes.head? = some dot → ∃ r, fs.Rules root here name (!rest.isEmpty) r ∧
    r.keeps = true
  entered : rest ≠ [] → name ∉ skipNames

theorem admits_iff_passes {fs : Files} {f : WalkFilter} (honours : f.honourIgnoreFiles = true)
    {root here rest : List OsString} {name : OsString} {node : Node}
    (isDir : node.kind = .dir ↔ rest ≠ []) :
    f.admits (fs.scopesOf f root here) (here ++ [name]) node = true ↔
      fs.Passes f.skipNames root here name rest := by
  -- A step leads into a directory exactly if there is more of the path behind it.
  have entering : decide (node.kind = .dir) = !rest.isEmpty := by
    cases rest <;> simp [isDir]
  have ruled := @verdict?_scopesOf fs f honours root here name (!rest.isEmpty)
  rw [WalkFilter.admits_iff, entering, ruled, isDir]
  constructor
  · rintro ⟨notIgnored, shown, entered⟩
    refine ⟨fun r rules => ?_, fun hidden => ?_, entered⟩
    · rw [← verdict_ne_ignored_iff]
      rintro ignored
      exact notIgnored (ruled.mpr ⟨r, rules, ignored⟩)
    · obtain ⟨r, rules, kept⟩ := shown hidden
      exact ⟨r, rules, verdict_eq_kept_iff.mp kept⟩
  · rintro ⟨allowed, shown, entered⟩
    refine ⟨fun ignored => ?_, fun hidden => ?_, entered⟩
    · obtain ⟨r, rules, ignored⟩ := ruled.mp ignored
      exact verdict_ne_ignored_iff.mpr (allowed r rules) ignored
    · obtain ⟨r, rules, keeps⟩ := shown hidden
      exact ⟨r, rules, verdict_eq_kept_iff.mpr keeps⟩

/-- With ignore files the steps to a file are admitted if each of them passes. -/
theorem admitted_iff_passes {fs : Files} {f : WalkFilter} (honours : f.honourIgnoreFiles = true)
    {root here rest : List OsString} {content : ByteArray}
    (found : fs.kindAt? (root ++ (here ++ rest)) = some (.file content)) :
    fs.Admitted f root here rest ↔ ∀ mid name tail, rest = mid ++ name :: tail →
      fs.Passes f.skipNames root (here ++ mid) name tail := by
  induction rest generalizing here with
  | nil => simp [Admitted]
  | cons name rest ih =>
    obtain ⟨node, atName, isDir⟩ := exists_step found
    rw [← List.singleton_append, ← List.append_assoc here] at found
    have step : (∀ node, fs.top.at? (root ++ (here ++ [name])) = some node →
        f.admits (fs.scopesOf f root here) (here ++ [name]) node = true) ↔
        fs.Passes f.skipNames root here name rest := by
      simp only [atName, Option.some.injEq, forall_eq', admits_iff_passes honours isDir]
    -- The first step is taken from here, and the others from where it leads.
    rw [Admitted, step, ih found]
    constructor
    · rintro ⟨first, others⟩ mid name' tail split
      cases mid with
      | nil =>
        obtain ⟨rfl, rfl⟩ := List.cons.inj split
        rwa [List.append_nil]
      | cons name mid =>
        obtain ⟨rfl, rfl⟩ := List.cons.inj split
        simpa using others mid name' tail rfl
    · intro each
      refine ⟨by simpa using each [] name rest rfl, fun mid name' tail split => ?_⟩
      simpa using each (name :: mid) name' tail (by rw [split, List.cons_append])

theorem mem_walk_iff_passes {fs : Files} {f : WalkFilter} {root below : List OsString}
    (formed : fs.top.WellFormed) (honours : f.honourIgnoreFiles = true) :
    below ∈ fs.walk f root ↔ fs.Accepted f root below ∧
      ∀ here name rest, below = here ++ name :: rest →
        fs.Passes f.skipNames root here name rest := by
  rw [mem_walk_iff formed]
  refine and_congr_right ?_
  rintro ⟨content, located, _⟩
  rw [admitted_iff_passes honours (kindAt?_eq_file.mpr located)]
  simp only [List.nil_append]

/-- Without ignore files the steps of a walk look at the names alone. -/
theorem mem_walk_iff_shown {fs : Files} {f : WalkFilter} {root below : List OsString}
    (formed : fs.top.WellFormed) (plain : f.honourIgnoreFiles = false) :
    below ∈ fs.walk f root ↔ fs.Accepted f root below ∧
      (∀ name ∈ below, name.bytes.head? ≠ some dot) ∧
      ∀ name ∈ below.dropLast, name ∉ f.skipNames := by
  rw [mem_walk_iff formed]
  refine and_congr_right ?_
  rintro ⟨content, located, _⟩
  exact admitted_iff plain (kindAt?_eq_file.mpr located)

theorem mem_dropLast_iff {names : List OsString} {name : OsString} :
    name ∈ names.dropLast ↔ ∃ here rest, names = here ++ name :: rest ∧ rest ≠ [] := by
  induction names with
  | nil => simp
  | cons first names ih =>
    cases names with
    | nil =>
      simp only [List.dropLast_singleton, List.not_mem_nil, false_iff]
      rintro ⟨here, rest, split, more⟩
      cases here <;> simp_all
    | cons second names =>
      rw [List.dropLast_cons_cons, List.mem_cons, ih]
      constructor
      · rintro (rfl | ⟨here, rest, split, more⟩)
        · exact ⟨[], second :: names, rfl, by simp⟩
        · exact ⟨first :: here, rest, by rw [split, List.cons_append], more⟩
      · rintro ⟨here, rest, split, more⟩
        cases here with
        | nil => exact .inl (List.cons.inj split).1.symm
        | cons one here => exact .inr ⟨here, rest, (List.cons.inj split).2, more⟩

/-- Ignore files reveal nothing but what their rules keep: a listed file that is not listed without
them has a hidden name on its path, and each hidden name is that of an entry that a rule keeps. Of
the files that are listed without them they leave those to which no rule forbids a step. -/
theorem ignore_files_reveal_kept_only {fs : Files} (formed : fs.top.WellFormed) (f : WalkFilter)
    (root below : List OsString) :
    (below ∈ fs.walk { f with honourIgnoreFiles := true } root →
      (below ∈ fs.walk { f with honourIgnoreFiles := false } root ↔
        ∀ name ∈ below, name.bytes.head? ≠ some dot) ∧
      ∀ here name rest, below = here ++ name :: rest → name.bytes.head? = some dot →
        ∃ r, fs.Rules root here name (!rest.isEmpty) r ∧ r.keeps = true) ∧
    (below ∈ fs.walk { f with honourIgnoreFiles := false } root →
      (below ∈ fs.walk { f with honourIgnoreFiles := true } root ↔
        ∀ here name rest, below = here ++ name :: rest →
          ∀ r, fs.Rules root here name (!rest.isEmpty) r → r.keeps = true)) := by
  -- Whether a file is accepted does not depend on the ignore files.
  have same : fs.Accepted { f with honourIgnoreFiles := true } root below ↔
      fs.Accepted { f with honourIgnoreFiles := false } root below := .rfl
  rw [mem_walk_iff_passes formed rfl, mem_walk_iff_shown formed rfl, same]
  constructor
  · rintro ⟨accepted, passes⟩
    have entered : ∀ name ∈ below.dropLast, name ∉ f.skipNames := by
      intro name member
      obtain ⟨here, rest, split, more⟩ := mem_dropLast_iff.mp member
      exact (passes here name rest split).entered more
    exact ⟨⟨fun listed => listed.2.1, fun shown => ⟨accepted, shown, entered⟩⟩,
      fun here name rest split => (passes here name rest split).shown⟩
  · rintro ⟨accepted, shown, entered⟩
    constructor
    · rintro ⟨_, passes⟩ here name rest split
      exact (passes here name rest split).allowed
    · intro allowed
      refine ⟨accepted, fun here name rest split => ⟨allowed here name rest split, ?_, ?_⟩⟩
      · intro hidden
        exact absurd hidden (shown name (by simp [split]))
      · intro more
        exact entered name (mem_dropLast_iff.mpr ⟨here, rest, split, more⟩)

/-- A directory whose ignore file keeps a hidden file and takes away another one. -/
def keepingProject : Files :=
  ⟨.dir [(".gitignore", .file "gen.py\n!.env.py\n".toUTF8), (".env.py", .file "import auth\n".toUTF8),
    ("app.py", .file "import auth\n".toUTF8), ("gen.py", .file "import auth\n".toUTF8)], []⟩

theorem keepingProject_wellFormed : keepingProject.top.WellFormed :=
  Node.wellFormed_flat (by decide) (by decide) (by decide)

theorem env_listed :
    ([".env.py"] : List OsString) ∈ keepingProject.walk { honourIgnoreFiles := true } [] := by
  refine (mem_walk_iff keepingProject_wellFormed).mpr ⟨⟨_, rfl, by decide⟩, ?_, trivial⟩
  rintro node found
  cases found
  decide +kernel

/-- With ignore files a hidden file is listed that is not listed without them. -/
theorem hidden_file_listed :
    ([".env.py"] : List OsString) ∈ keepingProject.walk { honourIgnoreFiles := true } [] ∧
      ([".env.py"] : List OsString) ∉ keepingProject.walk { honourIgnoreFiles := false } [] := by
  refine ⟨env_listed, ?_⟩
  rw [mem_walk_iff_shown keepingProject_wellFormed rfl]
  rintro ⟨_, shown, _⟩
  exact shown ".env.py" (by simp) (by decide)

/-- The hidden file is listed because a rule keeps it. -/
theorem ignore_files_reveal_kept_only_env :
    keepingProject.top.WellFormed ∧
      ([".env.py"] : List OsString) ∈ keepingProject.walk { honourIgnoreFiles := true } [] ∧
      ∃ r, keepingProject.Rules [] [] ".env.py" false r ∧ r.keeps = true := by
  have reveals :=
    (ignore_files_reveal_kept_only keepingProject_wellFormed {} [] [".env.py"]).1 env_listed
  exact ⟨keepingProject_wellFormed, env_listed, reveals.2 [] ".env.py" [] rfl (by decide)⟩

end Files

end Ripple
