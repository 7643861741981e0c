import Ripple.Proofs.Files.Names

/-!
Where paths lead. What a path meets on its way depends only on the kind of thing that stands at each
location. So a path that leads somewhere leads there in every tree that keeps what stands in this
one: it can pass neither through a file nor through a place where there is nothing.
-/

namespace Ripple

namespace Node

/-- A node without what is in it, if it is a directory. -/
inductive Kind where
  | file (content : ByteArray)
  | link (target : OsString)
  | dir

instance (kind : Kind) : Decidable (kind = .dir) :=
  match kind with
  | .dir => isTrue rfl
  | .file _ | .link _ => isFalse nofun

def kind : Node → Kind
  | file content => .file content
  | link target => .link target
  | dir _ => .dir

theorem at?_nil (node : Node) : node.at? [] = some node := by
  cases node <;> rfl

theorem at?_append (node : Node) (a b : List OsString) :
    node.at? (a ++ b) = (node.at? a).bind (·.at? b) := by
  induction a generalizing node with
  | nil => rw [at?_nil, List.nil_append, Option.bind_some]
  | cons name rest ih =>
    cases node with
    | file | link => rfl
    | dir entries =>
      rw [List.cons_append, at?, at?]
      cases entries.lookup name with
      | none => rfl
      | some child => exact ih child

/-- A tree as a file system has it: in each directory the names are different from each other, and
all of them are names that files can have. -/
inductive WellFormed : Node → Prop
  | file {content : ByteArray} : WellFormed (file content)
  | link {target : OsString} : WellFormed (link target)
  | dir {entries : List (OsString × Node)} : (entries.map (·.1)).Nodup →
      (∀ entry ∈ entries, Path.IsName entry.1) → (∀ entry ∈ entries, WellFormed entry.2) →
      WellFormed (dir entries)

theorem mem_of_lookup {entries : List (OsString × Node)} {name : OsString} {child : Node}
    (found : entries.lookup name = some child) : (name, child) ∈ entries := by
  obtain ⟨before, after, rfl, _⟩ := List.lookup_eq_some_iff.mp found
  simp

theorem lookup_of_mem {entries : List (OsString × Node)} {name : OsString} {child : Node}
    (distinct : (entries.map (·.1)).Nodup) (member : (name, child) ∈ entries) :
    entries.lookup name = some child := by
  obtain ⟨before, after, rfl⟩ := List.append_of_mem member
  refine List.lookup_eq_some_iff.mpr ⟨before, after, rfl, fun entry listed => ?_⟩
  simp only [List.map_append, List.map_cons, List.nodup_append] at distinct
  simpa using (distinct.2.2 entry.1 (List.mem_map_of_mem listed) name (by simp)).symm

/-- Each part of a well-formed tree is well-formed, and the names that lead to it are names. -/
theorem WellFormed.at? {node part : Node} {location : List OsString} (formed : node.WellFormed)
    (found : node.at? location = some part) :
    part.WellFormed ∧ ∀ name ∈ location, Path.IsName name := by
  induction location generalizing node with
  | nil =>
    rw [at?_nil] at found
    cases found
    exact ⟨formed, by simp⟩
  | cons name rest ih =>
    cases formed with
    | file | link => simp [Node.at?] at found
    | dir _ named each =>
      rw [Node.at?] at found
      obtain ⟨child, entry, found⟩ := Option.bind_eq_some_iff.mp found
      have member := mem_of_lookup entry
      obtain ⟨inner, names⟩ := ih (each _ member) found
      exact ⟨inner, List.forall_mem_cons.mpr ⟨named _ member, names⟩⟩

section Flat

variable {entries : List (OsString × Node)} (plain : ∀ entry ∈ entries, entry.2.kind ≠ .dir)

include plain

/-- The tree of a single directory without others in it. -/
theorem wellFormed_flat (distinct : (entries.map (·.1)).Nodup)
    (named : ∀ entry ∈ entries, Path.IsName entry.1) : (dir entries).WellFormed := by
  refine .dir distinct named fun entry member => ?_
  have flat := plain entry member
  cases shape : entry.2 with
  | file => exact .file
  | link => exact .link
  | dir => simp [shape, kind] at flat

/-- In such a tree there is nothing but the directory and its entries. -/
theorem at?_flat {location : List OsString} {node : Node}
    (found : (dir entries).at? location = some node) :
    location = [] ∧ node = dir entries ∨ ∃ name, location = [name] ∧ (name, node) ∈ entries := by
  cases location with
  | nil => exact .inl ⟨rfl, by rw [at?_nil] at found; exact (Option.some.inj found).symm⟩
  | cons name rest =>
    rw [Node.at?] at found
    obtain ⟨child, entry, below⟩ := Option.bind_eq_some_iff.mp found
    have listed := mem_of_lookup entry
    have flat := plain _ listed
    cases rest with
    | nil =>
      rw [at?_nil] at below
      cases below
      exact .inr ⟨name, rfl, listed⟩
    | cons => cases child with
      | dir => simp [kind] at flat
      | file | link => cases below

end Flat

end Node

namespace Files

open Ripple.Path Node

/-- The kind of thing that stands at a location. -/
def kindAt? (fs : Files) (location : List OsString) : Option Kind := (fs.top.at? location).map kind

theorem kindAt?_eq_dir {fs : Files} {location : List OsString} :
    fs.kindAt? location = some .dir ↔ ∃ entries, fs.top.at? location = some (.dir entries) := by
  rw [kindAt?]
  cases found : fs.top.at? location with
  | none => simp
  | some node => cases node <;> simp [kind]

theorem kindAt?_eq_file {fs : Files} {location : List OsString} {content : ByteArray} :
    fs.kindAt? location = some (.file content) ↔ fs.top.at? location = some (.file content) := by
  rw [kindAt?]
  cases found : fs.top.at? location with
  | none => simp
  | some node => cases node <;> simp [kind]

theorem readAt_eq {fs : Files} (location : List OsString) :
    fs.readAt location = match fs.kindAt? location with
      | some (.file content) => .ok content
      | some .dir => .error .isDirectory
      | _ => .error .notFound := by
  rw [readAt, kindAt?]
  cases fs.top.at? location with
  | none => rfl
  | some node => cases node <;> rfl

theorem isDir_iff {fs : Files} {path : OsString} {location : List OsString}
    (leads : fs.locate path = .ok location) :
    fs.isDir path = true ↔ fs.kindAt? location = some .dir := by
  simp only [isDir, leads, kindAt?]
  cases fs.top.at? location with
  | none => simp
  | some node => cases node <;> simp [kind]

/-- A step that asks for an entry of a directory. -/
structure AsksEntry (step : OsString) : Prop where
  noDot : step ≠ "."
  noDots : step ≠ ".."
  short : step.bytes.length ≤ maxName

theorem asksEntry_of_isName {name : OsString} (isName : IsName name) : AsksEntry name :=
  ⟨isName.noDot, isName.noDots, isName.short⟩

/-- A step from a directory to a place, if what stands there is not a link. -/
inductive Enters (fs : Files) (here : List OsString) : OsString → List OsString → Prop
  | stay : Enters fs here "." here
  | up : Enters fs here ".." here.dropLast
  | down {step : OsString} {kind : Kind} : AsksEntry step →
      fs.kindAt? (here ++ [step]) = some kind → (∀ target, kind ≠ .link target) →
      Enters fs here step (here ++ [step])

/-- What a step comes to that asks for an entry. -/
theorem follow_entry {top : Node}
    {jump : List OsString → List OsString → Except AccessError (List OsString)}
    {here rest : List OsString} {step : OsString} {entries : List (OsString × Node)}
    (isDir : top.at? here = some (.dir entries)) (asks : AsksEntry step) :
    follow top jump here (step :: rest) = match entries.lookup step with
      | none => .error .notFound
      | some (.link target) => jump (if isAbsolute target then [] else here) (steps target ++ rest)
      | some _ => follow top jump (here ++ [step]) rest := by
  rw [follow, isDir]
  exact (if_neg asks.noDot).trans
    ((if_neg asks.noDots).trans (if_neg (Nat.not_lt.mpr asks.short)))

section Step

variable {fs : Files} {jump : List OsString → List OsString → Except AccessError (List OsString)}
  {here rest next : List OsString} {step : OsString}

theorem lookup_kind {entries : List (OsString × Node)}
    (found : fs.top.at? here = some (.dir entries)) :
    (entries.lookup step).map kind = fs.kindAt? (here ++ [step]) := by
  rw [kindAt?, at?_append, found, Option.bind_some, Node.at?]
  cases entries.lookup step with
  | none => rfl
  | some node => rw [Option.bind_some, at?_nil]

theorem follow_enters (isDir : fs.kindAt? here = some .dir) (enters : fs.Enters here step next) :
    follow fs.top jump here (step :: rest) = follow fs.top jump next rest := by
  obtain ⟨entries, found⟩ := kindAt?_eq_dir.mp isDir
  cases enters with
  | stay =>
    rw [follow, found]
    rfl
  | up =>
    rw [follow, found]
    rfl
  | down asks entry solid =>
    obtain ⟨node, listed, rfl⟩ := Option.map_eq_some_iff.mp ((lookup_kind found).trans entry)
    rw [follow_entry found asks, listed]
    cases node with
    | link target => exact absurd rfl (solid target)
    | file | dir => rfl

theorem follow_jumps {target : OsString} (isDir : fs.kindAt? here = some .dir)
    (asks : AsksEntry step) (linked : fs.kindAt? (here ++ [step]) = some (.link target)) :
    follow fs.top jump here (step :: rest) =
      jump (if isAbsolute target then [] else here) (steps target ++ rest) := by
  obtain ⟨entries, found⟩ := kindAt?_eq_dir.mp isDir
  obtain ⟨node, listed, same⟩ := Option.map_eq_some_iff.mp ((lookup_kind found).trans linked)
  rw [follow_entry found asks, listed]
  cases node with
  | link => cases same; rfl
  | file | dir => cases same

theorem follow_misses (isDir : fs.kindAt? here = some .dir) (asks : AsksEntry step)
    (missing : fs.kindAt? (here ++ [step]) = none) :
    follow fs.top jump here (step :: rest) = .error .notFound := by
  obtain ⟨entries, found⟩ := kindAt?_eq_dir.mp isDir
  have unlisted := Option.map_eq_none_iff.mp ((lookup_kind found).trans missing)
  rw [follow_entry found asks, unlisted]

theorem follow_tooLong (isDir : fs.kindAt? here = some .dir) (long : maxName < step.bytes.length) :
    follow fs.top jump here (step :: rest) = .error .nameTooLong := by
  obtain ⟨entries, found⟩ := kindAt?_eq_dir.mp isDir
  -- The two steps that are no names are short.
  have noDot : step ≠ "." := by
    rintro rfl
    exact absurd long (by decide)
  have noDots : step ≠ ".." := by
    rintro rfl
    exact absurd long (by decide)
  rw [follow, found]
  simp only [if_neg noDot, if_neg noDots, if_pos long]

theorem follow_stuck (stuck : fs.kindAt? here ≠ some .dir) :
    follow fs.top jump here (step :: rest) = .error .notDirectory := by
  rw [follow]
  split
  next entries found => exact absurd (kindAt?_eq_dir.mpr ⟨entries, found⟩) stuck
  next => rfl

/-- From a directory a step leads to a place, is too long for a name, meets a link, or names
nothing. -/
theorem enters_or_asks (fs : Files) (here : List OsString) (step : OsString) :
    (∃ next, fs.Enters here step next) ∨ maxName < step.bytes.length ∨ (AsksEntry step ∧
      ((∃ target, fs.kindAt? (here ++ [step]) = some (.link target)) ∨
        fs.kindAt? (here ++ [step]) = none)) := by
  by_cases noDot : step = "."
  · exact .inl ⟨here, noDot ▸ .stay⟩
  by_cases noDots : step = ".."
  · exact .inl ⟨here.dropLast, noDots ▸ .up⟩
  rcases Nat.lt_or_ge maxName step.bytes.length with long | short
  · exact .inr (.inl long)
  have asks : AsksEntry step := ⟨noDot, noDots, short⟩
  cases found : fs.kindAt? (here ++ [step]) with
  | none => exact .inr (.inr ⟨asks, .inr rfl⟩)
  | some kind =>
    cases kind with
    | link target => exact .inr (.inr ⟨asks, .inl ⟨target, rfl⟩⟩)
    | file | dir => exact .inl ⟨here ++ [step], .down asks found (by simp)⟩

/-- Steps succeed in a directory only, by a step to a place or by a jump. -/
theorem follow_cons_iff {reached : List OsString} :
    follow fs.top jump here (step :: rest) = .ok reached ↔ fs.kindAt? here = some .dir ∧
      ((∃ next, fs.Enters here step next ∧ follow fs.top jump next rest = .ok reached) ∨
        ∃ target, AsksEntry step ∧ fs.kindAt? (here ++ [step]) = some (.link target) ∧
          jump (if isAbsolute target then [] else here) (steps target ++ rest) = .ok reached) := by
  constructor
  · intro leads
    by_cases isDir : fs.kindAt? here = some .dir
    · refine ⟨isDir, ?_⟩
      rcases enters_or_asks fs here step with ⟨next, enters⟩ | long | ⟨asks, ⟨target, linked⟩ | missing⟩
      · rw [follow_enters isDir enters] at leads
        exact .inl ⟨next, enters, leads⟩
      · rw [follow_tooLong isDir long] at leads
        cases leads
      · rw [follow_jumps isDir asks linked] at leads
        exact .inr ⟨target, asks, linked, leads⟩
      · rw [follow_misses isDir asks missing] at leads
        cases leads
    · rw [follow_stuck isDir] at leads
      cases leads
  · rintro ⟨isDir, ⟨next, enters, leads⟩ | ⟨target, asks, linked, leads⟩⟩
    · rw [follow_enters isDir enters]
      exact leads
    · rw [follow_jumps isDir asks linked]
      exact leads

end Step

/-- What leads to something is a directory. -/
theorem isDir_above {fs : Files} {location rest : List OsString} {kind : Kind} (more : rest ≠ [])
    (found : fs.kindAt? (location ++ rest) = some kind) : fs.kindAt? location = some .dir := by
  obtain ⟨node, found, _⟩ := Option.map_eq_some_iff.mp found
  rw [at?_append] at found
  obtain ⟨above, here, below⟩ := Option.bind_eq_some_iff.mp found
  obtain ⟨name, names, rfl⟩ := List.exists_cons_of_ne_nil more
  cases above with
  | dir entries => exact kindAt?_eq_dir.mpr ⟨entries, here⟩
  | file | link => cases below

/-- Steps that succeed lead to something. -/
theorem follow_stands {fs : Files} {reached : List OsString}
    {jump : List OsString → List OsString → Except AccessError (List OsString)}
    (jumps : ∀ here rest, (∃ kind, fs.kindAt? here = some kind) → jump here rest = .ok reached →
      ∃ kind, fs.kindAt? reached = some kind) {here todo : List OsString}
    (stands : ∃ kind, fs.kindAt? here = some kind)
    (leads : follow fs.top jump here todo = .ok reached) :
    ∃ kind, fs.kindAt? reached = some kind := by
  induction todo generalizing here with
  | nil =>
    cases leads
    exact stands
  | cons step rest ih =>
    -- A step enters a place beside the present one, or a link is met and jumped from.
    obtain ⟨isDir, ⟨next, enters, leads⟩ | ⟨target, _, _, leads⟩⟩ := follow_cons_iff.mp leads
    · refine ih ?_ leads
      cases enters with
      | stay => exact stands
      | up =>
        rcases List.eq_nil_or_concat' here with rfl | ⟨above, name, rfl⟩
        · exact stands
        · rw [List.dropLast_concat]
          exact ⟨_, isDir_above (List.cons_ne_nil name []) isDir⟩
      | down _ entry => exact ⟨_, entry⟩
    · -- A jump starts from the top or from the directory of the link.
      refine jumps _ _ ?_ leads
      split
      · exact ⟨_, by rw [kindAt?, at?_nil]; rfl⟩
      · exact stands

/-- An absolute path leads to something, or it leads nowhere. -/
theorem locate_stands {fs : Files} {path : OsString} {reached : List OsString}
    (absolute : isAbsolute path = true) (leads : fs.locate path = .ok reached) :
    ∃ kind, fs.kindAt? reached = some kind := by
  have every : ∀ links here todo, (∃ kind, fs.kindAt? here = some kind) →
      followLinks fs.top links here todo = .ok reached → ∃ kind, fs.kindAt? reached = some kind := by
    intro links
    induction links with
    | zero => exact fun here todo stands leads => follow_stands (fun _ _ _ ends => by cases ends) stands leads
    | succ links ih => exact fun here todo stands leads => follow_stands ih stands leads
  rw [locate, if_pos absolute] at leads
  split at leads
  next => cases leads
  next =>
    split at leads
    next => cases leads
    next => exact every _ _ _ ⟨_, by rw [kindAt?, at?_nil]; rfl⟩ leads

/-- Names that lead through directories lead to what stands behind them. -/
theorem follow_names {fs : Files} {here names : List OsString}
    {jump : List OsString → List OsString → Except AccessError (List OsString)}
    {kind : Kind} (valid : ∀ name ∈ names, IsName name)
    (found : fs.kindAt? (here ++ names) = some kind) (solid : ∀ target, kind ≠ .link target) :
    follow fs.top jump here names = .ok (here ++ names) := by
  induction names generalizing here with
  | nil => rw [List.append_nil]; rfl
  | cons name names ih =>
    simp only [List.mem_cons, forall_eq_or_imp] at valid
    have split : here ++ name :: names = (here ++ [name]) ++ names := by simp
    obtain ⟨node, located, rfl⟩ := Option.map_eq_some_iff.mp found
    obtain ⟨parent, atHere, below⟩ := Option.bind_eq_some_iff.mp (at?_append _ _ _ ▸ located)
    -- Something stands below, so this is a directory.
    have isDir : fs.kindAt? here = some .dir := by
      rw [kindAt?_eq_dir]
      cases parent with
      | dir entries => exact ⟨entries, atHere⟩
      | file | link => cases below
    rw [split] at found ⊢
    refine follow_cons_iff.mpr ⟨isDir, .inl ⟨here ++ [name], ?_, ih valid.2 found⟩⟩
    rw [split, at?_append] at located
    obtain ⟨child, atName, rest⟩ := Option.bind_eq_some_iff.mp located
    refine .down (asksEntry_of_isName valid.1) (by rw [kindAt?, atName, Option.map_some]) ?_
    -- Nothing stands below a link, and at the end of the path there is none.
    intro target linked
    cases child with
    | link target =>
      cases names with
      | nil =>
        cases rest
        exact solid target rfl
      | cons => cases rest
    | file | dir => cases linked

/-- A location that is written as a path leads to itself. -/
theorem locate_pathOf {fs : Files} (formed : fs.top.WellFormed) {location : List OsString}
    {kind : Kind} (some : location ≠ []) (found : fs.kindAt? location = Option.some kind)
    (solid : ∀ target, kind ≠ .link target) : fs.locate (pathOf location) = .ok location := by
  obtain ⟨node, located, rfl⟩ := Option.map_eq_some_iff.mp found
  have valid := (formed.at? located).2
  have leads : ∀ jump, follow fs.top jump [] location = .ok location := fun jump =>
    follow_names valid found solid
  rw [locate, nul_not_mem_pathOf valid, isAbsolute_pathOf, steps_pathOf some valid]
  exact leads _

/-- What stands in the old tree stands in the new one, save in places that the old one has at most a
file for. -/
structure Keeps (but : List OsString → Prop) (old new : Files) : Prop where
  workDir : new.workDir = old.workDir
  kept : ∀ location kind, ¬ but location → old.kindAt? location = some kind →
    new.kindAt? location = some kind
  plain : ∀ location kind, but location → old.kindAt? location = some kind →
    ∃ content, kind = .file content

namespace Keeps

variable {but : List OsString → Prop} {old new : Files}

theorem not_dir (keeps : Keeps but old new) {location : List OsString}
    (found : old.kindAt? location = some .dir) : ¬ but location := by
  intro changed
  obtain ⟨content, impossible⟩ := keeps.plain location .dir changed found
  cases impossible

theorem dir (keeps : Keeps but old new) {location : List OsString}
    (found : old.kindAt? location = some .dir) : new.kindAt? location = some .dir :=
  keeps.kept location .dir (keeps.not_dir found) found

/-- Steps that lead to a place that is kept lead there in the new tree. -/
theorem follow (keeps : Keeps but old new)
    {jump jump' : List OsString → List OsString → Except AccessError (List OsString)}
    {reached : List OsString} (same : ¬ but reached)
    (jumps : ∀ here rest, jump here rest = .ok reached → jump' here rest = .ok reached)
    {here todo : List OsString} (leads : Files.follow old.top jump here todo = .ok reached) :
    Files.follow new.top jump' here todo = .ok reached := by
  induction todo generalizing here with
  | nil => exact leads
  | cons step rest ih =>
    rw [follow_cons_iff] at leads ⊢
    refine ⟨keeps.dir leads.1, ?_⟩
    rcases leads.2 with ⟨next, enters, leads⟩ | ⟨target, asks, entry, leads⟩
    · refine .inl ⟨next, ?_, ih leads⟩
      cases enters with
      | stay => exact .stay
      | up => exact .up
      | down asks entry other =>
        refine .down asks (keeps.kept _ _ (fun changed => ?_) entry) other
        -- Nothing leads on from a file, and the path does not end here.
        obtain ⟨content, rfl⟩ := keeps.plain _ _ changed entry
        cases rest with
        | nil =>
          cases leads
          contradiction
        | cons =>
          have dir := (follow_cons_iff.mp leads).1
          rw [entry] at dir
          cases dir
    · refine .inr ⟨target, asks, keeps.kept _ _ (fun changed => ?_) entry, jumps _ _ leads⟩
      obtain ⟨content, impossible⟩ := keeps.plain _ _ changed entry
      cases impossible

theorem followLinks (keeps : Keeps but old new) {reached : List OsString} (same : ¬ but reached)
    {links : Nat} {here todo : List OsString}
    (leads : Files.followLinks old.top links here todo = .ok reached) :
    Files.followLinks new.top links here todo = .ok reached := by
  induction links generalizing here todo with
  | zero => exact keeps.follow same (fun _ _ ends => by cases ends) leads
  | succ links ih => exact keeps.follow same (fun _ _ => ih) leads

theorem locate (keeps : Keeps but old new) {path : OsString} {reached : List OsString}
    (same : ¬ but reached) (leads : old.locate path = .ok reached) :
    new.locate path = .ok reached := by
  rw [Files.locate] at leads ⊢
  split at leads
  next => cases leads
  next nonul =>
    split at leads
    next => cases leads
    next some =>
      rw [if_neg nonul, if_neg some, keeps.workDir]
      exact keeps.followLinks same leads

end Keeps

end Files

end Ripple
