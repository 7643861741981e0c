import Mathlib.Logic.Relation
import Ripple.Proofs.Files.Resolving

/-!
How a path ends. A path is a walk through the tree, one step or one link at a time, and it comes to
an end in one of five ways: it arrives, it misses a name in a directory, it asks for a name that is
too long, it has to go on from something that is no directory, or it has led through too many links.
Reading a file can fail for these reasons, when the path has a zero in it, and when it arrives at a
directory or at bytes that are no text.
-/

namespace Ripple.Files

open Ripple.Path Node

/-- A point on the way of a path: where it is, the steps that remain, and the number of links that
it may still lead through. -/
structure Way where
  here : List OsString
  todo : List OsString
  links : Nat

/-- A path goes one step on. -/
inductive Goes (fs : Files) : Way → Way → Prop
  | enter {here rest next : List OsString} {step : OsString} {links : Nat} :
      fs.kindAt? here = some .dir → fs.Enters here step next →
      Goes fs ⟨here, step :: rest, links⟩ ⟨next, rest, links⟩
  | jump {here rest : List OsString} {step target : OsString} {links : Nat} :
      fs.kindAt? here = some .dir → AsksEntry step →
      fs.kindAt? (here ++ [step]) = some (.link target) →
      Goes fs ⟨here, step :: rest, links + 1⟩
        ⟨if isAbsolute target then [] else here, steps target ++ rest, links⟩

/-- A path goes no further. -/
inductive Ends (fs : Files) : Way → Except AccessError (List OsString) → Prop
  | arrives {here : List OsString} {links : Nat} : Ends fs ⟨here, [], links⟩ (.ok here)
  | misses {here rest : List OsString} {step : OsString} {links : Nat} :
      fs.kindAt? here = some .dir → AsksEntry step → fs.kindAt? (here ++ [step]) = none →
      Ends fs ⟨here, step :: rest, links⟩ (.error .notFound)
  | tooLong {here rest : List OsString} {step : OsString} {links : Nat} :
      fs.kindAt? here = some .dir → maxName < step.bytes.length →
      Ends fs ⟨here, step :: rest, links⟩ (.error .nameTooLong)
  | stuck {here rest : List OsString} {step : OsString} {links : Nat} :
      fs.kindAt? here ≠ some .dir → Ends fs ⟨here, step :: rest, links⟩ (.error .notDirectory)
  | tangled {here rest : List OsString} {step target : OsString} :
      fs.kindAt? here = some .dir → AsksEntry step →
      fs.kindAt? (here ++ [step]) = some (.link target) →
      Ends fs ⟨here, step :: rest, 0⟩ (.error .tooManyLinks)

/-- What comes of following a way. -/
def outcome (fs : Files) (way : Way) : Except AccessError (List OsString) :=
  followLinks fs.top way.links way.here way.todo

/-- What is done at a link, if so many of them are allowed. -/
def jumps (fs : Files) : Nat → List OsString → List OsString → Except AccessError (List OsString)
  | 0 => fun _ _ => .error .tooManyLinks
  | links + 1 => followLinks fs.top links

theorem outcome_eq (fs : Files) (way : Way) :
    fs.outcome way = follow fs.top (fs.jumps way.links) way.here way.todo := by
  obtain ⟨here, todo, links⟩ := way
  cases links <;> rfl

theorem outcome_goes {fs : Files} {way next : Way} (goes : fs.Goes way next) :
    fs.outcome way = fs.outcome next := by
  rw [outcome_eq]
  cases goes with
  | enter isDir enters => rw [outcome_eq, follow_enters isDir enters]
  | jump isDir asks linked => exact follow_jumps isDir asks linked

theorem outcome_ends {fs : Files} {way : Way} {outcome : Except AccessError (List OsString)}
    (ends : fs.Ends way outcome) : fs.outcome way = outcome := by
  rw [outcome_eq]
  cases ends with
  | arrives => rfl
  | misses isDir asks missing => exact follow_misses isDir asks missing
  | tooLong isDir long => exact follow_tooLong isDir long
  | stuck notDir => exact follow_stuck notDir
  | tangled isDir asks linked => exact follow_jumps isDir asks linked

/-- Every way comes to an end if those do that go on with a link. -/
theorem exists_ends_of_jumps {fs : Files} {links : Nat}
    (jumped : ∀ {here step target} rest, fs.kindAt? here = some .dir → AsksEntry step →
      fs.kindAt? (here ++ [step]) = some (.link target) →
      ∃ last outcome, Relation.ReflTransGen fs.Goes ⟨here, step :: rest, links⟩ last ∧
        fs.Ends last outcome)
    (here todo : List OsString) :
    ∃ last outcome, Relation.ReflTransGen fs.Goes ⟨here, todo, links⟩ last ∧
      fs.Ends last outcome := by
  induction todo generalizing here with
  | nil => exact ⟨_, _, .refl, .arrives⟩
  | cons step rest ih =>
    -- The next step is entered, is no name, meets a link, or leads to nothing.
    by_cases isDir : fs.kindAt? here = some .dir
    · obtain ⟨next, enters⟩ | long | ⟨asks, ⟨target, linked⟩ | missing⟩ :=
        enters_or_asks fs here step
      · obtain ⟨last, outcome, run, ends⟩ := ih next
        exact ⟨last, outcome, .head (.enter isDir enters) run, ends⟩
      · exact ⟨_, _, .refl, .tooLong isDir long⟩
      · exact jumped rest isDir asks linked
      · exact ⟨_, _, .refl, .misses isDir asks missing⟩
    · exact ⟨_, _, .refl, .stuck isDir⟩

/-- Every way comes to an end: each link takes one of the links that are left. -/
theorem exists_ends (fs : Files) (way : Way) :
    ∃ last outcome, Relation.ReflTransGen fs.Goes way last ∧ fs.Ends last outcome := by
  obtain ⟨here, todo, links⟩ := way
  induction links generalizing here todo with
  | zero =>
    refine exists_ends_of_jumps (fun rest isDir asks linked => ?_) here todo
    exact ⟨_, _, .refl, .tangled isDir asks linked⟩
  | succ links ih =>
    refine exists_ends_of_jumps (fun rest isDir asks linked => ?_) here todo
    obtain ⟨last, outcome, run, ends⟩ := ih _ _
    exact ⟨last, outcome, .head (.jump isDir asks linked) run, ends⟩

theorem outcome_run {fs : Files} {way last : Way} (run : Relation.ReflTransGen fs.Goes way last) :
    fs.outcome way = fs.outcome last := by
  induction run with
  | refl => rfl
  | tail _ goes ih => exact ih.trans (outcome_goes goes)

theorem outcome_eq_iff {fs : Files} {way : Way} {outcome : Except AccessError (List OsString)} :
    fs.outcome way = outcome ↔
      ∃ last, Relation.ReflTransGen fs.Goes way last ∧ fs.Ends last outcome := by
  constructor
  · rintro rfl
    obtain ⟨last, outcome, run, ends⟩ := fs.exists_ends way
    rw [outcome_run run, outcome_ends ends]
    exact ⟨last, run, ends⟩
  · rintro ⟨last, run, ends⟩
    rw [outcome_run run, outcome_ends ends]

/-- The beginning of a path. -/
def wayOf (fs : Files) (path : OsString) : Way :=
  ⟨if isAbsolute path then [] else fs.workDir, steps path, maxLinks⟩

/-- How a path ends. One with a zero in it is refused, and the empty path names nothing. -/
inductive Leads (fs : Files) (path : OsString) : Except AccessError (List OsString) → Prop
  | refused : 0 ∈ path.bytes → Leads fs path (.error .nulInside)
  | empty : path = "" → Leads fs path (.error .notFound)
  | way {last : Way} {outcome : Except AccessError (List OsString)} : 0 ∉ path.bytes → path ≠ "" →
      Relation.ReflTransGen fs.Goes (fs.wayOf path) last → fs.Ends last outcome →
      Leads fs path outcome

theorem locate_eq_iff {fs : Files} {path : OsString} {outcome : Except AccessError (List OsString)} :
    fs.locate path = outcome ↔ fs.Leads path outcome := by
  have following : 0 ∉ path.bytes → path ≠ "" → fs.locate path = fs.outcome (fs.wayOf path) := by
    intro nonul some
    have solid : path.bytes ≠ [] := fun none => some (congrArg OsString.mk none)
    rw [locate, if_neg (by simpa using nonul), if_neg (by simpa using solid)]
    rfl
  constructor
  · rintro rfl
    by_cases nul : 0 ∈ path.bytes
    · rw [locate, if_pos (by simpa using nul)]
      exact .refused nul
    by_cases some : path = ""
    · subst some
      exact .empty rfl
    · obtain ⟨last, run, ends⟩ := outcome_eq_iff.mp (following nul some).symm
      exact .way nul some run ends
  · intro leads
    cases leads with
    | refused nul => rw [locate, if_pos (by simpa using nul)]
    | empty none =>
      subst none
      rfl
    | way nonul some run ends => exact (following nonul some).trans (outcome_eq_iff.mpr ⟨_, run, ends⟩)

/-- A path that is not empty has a first step. -/
theorem steps_ne_nil {path : OsString} (some : path ≠ "") : steps path ≠ [] := by
  obtain ⟨piece, pieces, found, whole, _⟩ := Text.splitOn_spec slash path.bytes
  intro none
  rw [steps, found] at none
  obtain ⟨skipped, unasked⟩ := List.append_eq_nil_iff.mp none
  have blank : ∀ p ∈ piece :: pieces, p = [] := by
    intro p member
    have dropped := List.filter_eq_nil_iff.mp skipped (OsString.mk p) (List.mem_map_of_mem member)
    have empty : OsString.mk p = "" := by simpa using dropped
    exact congrArg OsString.bytes empty
  -- A slash at the end asks for a directory, which is a step of its own.
  have alone : pieces = [] := by
    by_contra more
    rw [if_pos] at unasked
    · cases unasked
    · obtain ⟨init, last, rfl⟩ := (List.eq_nil_or_concat' pieces).resolve_left more
      refine ⟨?_, by simp⟩
      simp only [List.map_cons, List.map_append, List.map_nil, List.getLast?_cons,
        List.getLast?_concat, blank last (by simp)]
      rfl
  apply some
  rw [alone, blank piece (by simp)] at whole
  exact congrArg OsString.mk whole

/-- A step from a directory leads to a file or to a directory. -/
theorem Enters.stands {fs : Files} {here next : List OsString} {step : OsString}
    (isDir : fs.kindAt? here = some .dir) (enters : fs.Enters here step next) :
    (∃ content, fs.kindAt? next = some (.file content)) ∨ fs.kindAt? next = some .dir := by
  cases enters with
  | stay => exact .inr isDir
  | up =>
    rcases List.eq_nil_or_concat' here with rfl | ⟨above, name, rfl⟩
    · exact .inr isDir
    · rw [List.dropLast_concat]
      exact .inr (isDir_above (List.cons_ne_nil name []) isDir)
  | @down _ kind _ entry solid =>
    cases kind with
    | file content => exact .inl ⟨content, entry⟩
    | link target => exact absurd rfl (solid target)
    | dir => exact .inr entry

/-- A path that arrives has a file or a directory to arrive at. -/
theorem Leads.stands {fs : Files} {path : OsString} {location : List OsString}
    (leads : fs.Leads path (.ok location)) :
    (∃ content, fs.kindAt? location = some (.file content)) ∨ fs.kindAt? location = some .dir := by
  cases leads with
  | @way last _ nonul some run ends =>
    -- Wherever no step remains, something stands: at the beginning one does remain.
    have stands : last.todo = [] → (∃ content, fs.kindAt? last.here = Option.some (.file content)) ∨
        fs.kindAt? last.here = Option.some .dir := by
      clear ends
      induction run with
      | refl => exact fun none => absurd none (steps_ne_nil some)
      | tail _ goes _ =>
        intro none
        cases goes with
        | enter isDir enters => exact enters.stands isDir
        | @jump here _ _ _ _ isDir =>
          refine .inr ?_
          dsimp only
          split
          · cases here with
            | nil => exact isDir
            | cons name names => exact @isDir_above _ [] _ _ (by simp) isDir
          · exact isDir
    cases ends
    exact stands rfl

/-- What comes of reading a path as a text. -/
inductive Reads (fs : Files) (path : OsString) : Except AccessError String → Prop
  | text {location : List OsString} {source : String} : fs.Leads path (.ok location) →
      fs.kindAt? location = some (.file source.toUTF8) → Reads fs path (.ok source)
  | noText {location : List OsString} {content : ByteArray} : fs.Leads path (.ok location) →
      fs.kindAt? location = some (.file content) → (∀ source : String, source.toUTF8 ≠ content) →
      Reads fs path (.error .notText)
  | noFile {location : List OsString} : fs.Leads path (.ok location) →
      fs.kindAt? location = some .dir → Reads fs path (.error .isDirectory)
  | nowhere {cause : AccessError} : fs.Leads path (.error cause) → Reads fs path (.error cause)

theorem decode_eq_ok_iff {content : ByteArray} {source : String} :
    decode content = .ok source ↔ content = source.toUTF8 := by
  rw [decode, String.fromUTF8?]
  by_cases valid : content.IsValidUTF8
  · rw [dif_pos valid]
    constructor
    · intro read
      cases read
      rfl
    · rintro rfl
      rfl
  · rw [dif_neg valid]
    constructor
    · intro read
      cases read
    · rintro rfl
      exact absurd source.isValidUTF8 valid

theorem decode_eq_error {content : ByteArray} (noText : ∀ source : String, source.toUTF8 ≠ content) :
    decode content = .error .notText := by
  rw [decode]
  split
  next source read =>
    have decoded : decode content = .ok source := by rw [decode, read]
    exact absurd (decode_eq_ok_iff.mp decoded).symm (noText source)
  next => rfl

theorem Reads.eq {fs : Files} {path : OsString} {outcome : Except AccessError String}
    (reads : fs.Reads path outcome) : fs.readText path = outcome := by
  rw [readText, read]
  cases reads with
  | text leads found =>
    rw [locate_eq_iff.mpr leads]
    simp only [bind, Except.bind, readAt_eq, found]
    exact decode_eq_ok_iff.mpr rfl
  | noText leads found noText =>
    rw [locate_eq_iff.mpr leads]
    simp only [bind, Except.bind, readAt_eq, found]
    exact decode_eq_error noText
  | noFile leads found =>
    rw [locate_eq_iff.mpr leads]
    simp only [bind, Except.bind, readAt_eq, found]
  | nowhere leads =>
    rw [locate_eq_iff.mpr leads]
    rfl

/-- Reading a path always has one of these outcomes. -/
theorem exists_reads (fs : Files) (path : OsString) : ∃ outcome, fs.Reads path outcome := by
  cases located : fs.locate path with
  | error cause => exact ⟨_, .nowhere (locate_eq_iff.mp located)⟩
  | ok location =>
    have leads := locate_eq_iff.mp located
    rcases leads.stands with ⟨content, found⟩ | found
    · by_cases text : ∃ source : String, source.toUTF8 = content
      · obtain ⟨source, rfl⟩ := text
        exact ⟨_, .text leads found⟩
      · exact ⟨_, .noText leads found fun source same => text ⟨source, same⟩⟩
    · exact ⟨_, .noFile leads found⟩

theorem readText_eq_iff {fs : Files} {path : OsString} {outcome : Except AccessError String} :
    fs.readText path = outcome ↔ fs.Reads path outcome := by
  constructor
  · rintro rfl
    obtain ⟨outcome, reads⟩ := fs.exists_reads path
    rwa [reads.eq]
  · exact Reads.eq

/-- A path leads to a directory. -/
def LeadsToDir (fs : Files) (path : OsString) : Prop :=
  ∃ location, fs.Leads path (.ok location) ∧ fs.kindAt? location = some .dir

theorem isDir_eq_true_iff {fs : Files} {path : OsString} :
    fs.isDir path = true ↔ fs.LeadsToDir path := by
  constructor
  · intro isDir
    cases located : fs.locate path with
    | error => simp [Files.isDir, located] at isDir
    | ok location => exact ⟨location, locate_eq_iff.mp located, (isDir_iff located).mp isDir⟩
  · rintro ⟨location, leads, found⟩
    exact (isDir_iff (locate_eq_iff.mpr leads)).mpr found

end Ripple.Files
