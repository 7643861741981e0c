import Mathlib.Data.List.Forall2
import Ripple.Proofs.Language.Templates

/-!
Readers that differ only in the literals they have read. Which characters these are, and how many,
decides neither what a reader makes of the text that follows nor whether what it has read stands for
an expression. So two such readers go on alike, step by step.
-/

namespace Ripple.Regex

namespace Tree

/-- The switches in force behind a tree, if it stands for an expression. -/
def after (t : Tree) (m : Mode) : Except SyntaxError Mode := (t.toRegex m).map (·.2)

def afterAll (ts : List Tree) (m : Mode) : Except SyntaxError Mode := (toRegexes ts m).map (·.2)

theorem afterAll_cons (t : Tree) (ts : List Tree) (m : Mode) :
    afterAll (t :: ts) m = t.after m >>= afterAll ts := by
  simp only [afterAll, after, toRegexes, bind, Except.bind, Except.map, pure, Except.pure]
  cases t.toRegex m with
  | error e => rfl
  | ok first =>
    obtain ⟨r, next⟩ := first
    dsimp only
    cases toRegexes ts next <;> rfl

theorem afterAll_append (ts us : List Tree) (m : Mode) :
    afterAll (ts ++ us) m = afterAll ts m >>= afterAll us := by
  induction ts generalizing m with
  | nil => rfl
  | cons t ts ih =>
    rw [List.cons_append, afterAll_cons, afterAll_cons]
    cases t.after m with
    | error e => rfl
    | ok next => exact ih next

theorem afterAll_concat (ts : List Tree) (t : Tree) (m : Mode) :
    afterAll (ts ++ [t]) m = afterAll ts m >>= t.after := by
  rw [afterAll_append]
  congr 1
  funext next
  rw [afterAll_cons]
  cases t.after next <;> rfl

theorem after_rep (t : Tree) (min : Nat) (max : Option Nat) (greedy : Bool) (m : Mode) :
    (rep t min max greedy).after m = t.after m := by
  simp only [after, toRegex, bind, Except.bind, Except.map, pure, Except.pure]
  cases t.toRegex m <;> rfl

theorem after_alt (ts : List Tree) (m : Mode) : (alt ts).after m = afterAll ts m := by
  simp only [after, afterAll, toRegex, bind, Except.bind, Except.map, pure, Except.pure]
  cases toRegexes ts m <;> rfl

theorem after_cat (ts : List Tree) (m : Mode) : (cat ts).after m = afterAll ts m := by
  simp only [after, afterAll, toRegex, bind, Except.bind, Except.map, pure, Except.pure]
  cases toRegexes ts m <;> rfl

theorem after_literal (c : Char) (m : Mode) : (literal ⟨c, false⟩).after m = .ok m := by
  simp [after, toRegex, Mode.charOf, bind, Except.bind, Except.map, pure, Except.pure]

/-- A tree that stands for an expression where another one does, and is nested no deeper. -/
structure Mirrors (t u : Tree) : Prop where
  after_eq : ∀ m, t.after m = u.after m
  depth_le : u.depth ≤ t.depth

namespace Mirrors

theorem refl (t : Tree) : Mirrors t t := ⟨fun _ => rfl, Nat.le_refl _⟩

variable {t u : Tree}

theorem rep (mirrors : Mirrors t u) (min : Nat) (max : Option Nat) (greedy : Bool) :
    Mirrors (.rep t min max greedy) (.rep u min max greedy) where
  after_eq m := by rw [after_rep, after_rep, mirrors.after_eq]
  depth_le := by
    simp only [depth]
    exact Nat.succ_le_succ mirrors.depth_le

theorem group (mirrors : Mirrors t u) (kind : GroupKind) :
    Mirrors (.group kind t) (.group kind u) where
  after_eq m := by
    -- A group gives back the switches before it, whatever those inside are.
    have inner : ∀ m, (∃ e, t.toRegex m = .error e ∧ u.toRegex m = .error e) ∨
        ∃ a b, t.toRegex m = .ok a ∧ u.toRegex m = .ok b := by
      intro m
      have same := mirrors.after_eq m
      rw [after, after] at same
      cases left : t.toRegex m <;> cases right : u.toRegex m <;> simp_all [Except.map]
    cases kind with
    | capture index name =>
      rcases inner m with ⟨e, left, right⟩ | ⟨a, b, left, right⟩ <;>
        simp only [after, toRegex, left, right, bind, Except.bind, Except.map, pure, Except.pure]
    | plain change =>
      rcases inner (m.apply change) with ⟨e, left, right⟩ | ⟨a, b, left, right⟩ <;>
        simp only [after, toRegex, left, right, bind, Except.bind, Except.map, pure, Except.pure]
  depth_le := by
    simp only [depth]
    exact Nat.succ_le_succ mirrors.depth_le

end Mirrors

/-- Lists of trees, latest first, that mirror each other as a whole. -/
structure MirrorsAll (ts us : List Tree) : Prop where
  after_eq : ∀ m, afterAll ts.reverse m = afterAll us.reverse m
  depth_le : depthOfAll us ≤ depthOfAll ts
  nil : ts = [] → us = []

theorem depthOfAll_reverse (ts : List Tree) : depthOfAll ts.reverse = depthOfAll ts := by
  induction ts with
  | nil => rfl
  | cons t ts ih =>
    rw [List.reverse_cons, depthOfAll_append, ih]
    simp only [depthOfAll, Nat.max_def]
    grind

theorem MirrorsAll.cons {t u : Tree} {ts us : List Tree} (first : Mirrors t u)
    (rest : MirrorsAll ts us) : MirrorsAll (t :: ts) (u :: us) where
  after_eq m := by
    rw [List.reverse_cons, List.reverse_cons, afterAll_concat, afterAll_concat, rest.after_eq]
    congr 1
    funext next
    exact first.after_eq next
  depth_le := by
    have here := first.depth_le
    have below := rest.depth_le
    simp only [depthOfAll, Nat.max_def]
    grind
  nil := by simp

/-- The branches of a choice mirror each other one by one. -/
theorem Mirrors.ofBranches {ts us : List Tree} (each : List.Forall₂ Mirrors ts us) :
    Mirrors (ofBranches ts) (ofBranches us) := by
  have after : ∀ m, afterAll ts m = afterAll us m := by
    induction each with
    | nil => exact fun _ => rfl
    | cons first _ ih =>
      intro m
      rw [afterAll_cons, afterAll_cons, first.after_eq]
      congr 1
      funext next
      exact ih next
  have depth : depthOfAll us ≤ depthOfAll ts := by
    clear after
    induction each with
    | nil => exact Nat.le_refl _
    | cons first _ ih =>
      have here := first.depth_le
      simp only [depthOfAll, Nat.max_def]
      grind
  -- A choice of one branch is that branch, and no level deeper.
  cases each with
  | nil => exact .refl _
  | cons first rest =>
    cases rest with
    | nil => exact first
    | cons second rest =>
      refine ⟨fun m => ?_, Nat.succ_le_succ depth⟩
      exact (after_alt _ m).trans ((after m).trans (after_alt _ m).symm)

/-- The items of a branch, latest first: none at all, or the last ones mirror each other, both of
them can be repeated or none, and so do those before them as a whole. -/
inductive MirrorItems : List Tree → List Tree → Prop
  | nil : MirrorItems [] []
  | cons {t u : Tree} {ts us : List Tree} : Mirrors t u →
      (∀ change, t = .flags change ↔ u = .flags change) → MirrorsAll ts us →
      MirrorItems (t :: ts) (u :: us)

theorem MirrorItems.all {ts us : List Tree} (items : MirrorItems ts us) : MirrorsAll ts us := by
  cases items with
  | nil => exact ⟨fun _ => rfl, Nat.le_refl _, id⟩
  | cons first _ rest => exact .cons first rest

theorem MirrorItems.push {ts us : List Tree} (items : MirrorItems ts us) (t : Tree) :
    MirrorItems (t :: ts) (t :: us) :=
  .cons (.refl t) (fun _ => Iff.rfl) items.all

theorem after_ofSequence (ts : List Tree) (m : Mode) : (ofSequence ts).after m = afterAll ts m := by
  cases ts with
  | nil => rfl
  | cons t ts =>
    cases ts with
    | nil =>
      change t.after m = _
      rw [afterAll_cons]
      cases t.after m <;> rfl
    | cons => exact after_cat _ m

theorem depth_ofSequence (ts : List Tree) :
    (ofSequence ts).depth = depthOfAll ts + if ts.length ≤ 1 then 0 else 1 := by
  cases ts with
  | nil => rfl
  | cons t ts =>
    cases ts with
    | nil => simp [ofSequence, depthOfAll]
    | cons => simp [ofSequence, depth]

theorem MirrorItems.ofSequence {ts us : List Tree} (items : MirrorItems ts us) :
    Mirrors (ofSequence ts.reverse) (ofSequence us.reverse) := by
  have all := items.all
  refine ⟨fun m => ?_, ?_⟩
  · rw [after_ofSequence, after_ofSequence, all.after_eq]
  · -- A single item is not mirrored by several.
    have short : ts.length ≤ 1 → us.length ≤ 1 := by
      cases items with
      | nil => exact id
      | cons _ _ rest =>
        intro one
        have none := rest.nil (List.eq_nil_of_length_eq_zero (by simpa using one))
        simp [none]
    have depth := all.depth_le
    rw [depth_ofSequence, depth_ofSequence, depthOfAll_reverse, depthOfAll_reverse,
      List.length_reverse, List.length_reverse]
    split
    · omega
    · split <;> omega

/-- Names in the place of a hole mirror each other, unless they are empty. The first one is not a
single character. -/
theorem MirrorItems.literals {ts us : List Tree} (items : MirrorItems ts us) {a b : List Char}
    (several : 2 ≤ a.length) (some : b ≠ []) :
    MirrorItems ((Reader.literals a).reverse ++ ts) ((Reader.literals b).reverse ++ us) := by
  -- Characters change no flags.
  have after : ∀ (cs : List Char) m, afterAll (Reader.literals cs) m = .ok m := by
    intro cs m
    induction cs with
    | nil => rfl
    | cons c cs ih =>
      simp only [Reader.literals] at ih
      rw [Reader.literals, List.map_cons, afterAll_cons, after_literal]
      exact ih
  have all := items.all
  -- Runs of characters mirror each other whatever their lengths, if the first is not empty.
  have run : ∀ {a b : List Char}, a ≠ [] →
      MirrorsAll ((Reader.literals a).reverse ++ ts) ((Reader.literals b).reverse ++ us) := by
    intro a b nonempty
    refine ⟨fun m => ?_, ?_, ?_⟩
    · simp only [List.reverse_append, List.reverse_reverse, afterAll_append, all.after_eq]
      cases afterAll us.reverse m with
      | error => rfl
      | ok next => exact (after a next).trans (after b next).symm
    · simp only [depthOfAll_append, depthOfAll_reverse, depthOfAll_literals, Nat.zero_max]
      exact all.depth_le
    · simp [Reader.literals, nonempty]
  obtain ⟨a, c, rfl⟩ := (List.eq_nil_or_concat' a).resolve_left (by rintro rfl; simp at several)
  obtain ⟨b, d, rfl⟩ := (List.eq_nil_or_concat' b).resolve_left some
  have shape : ∀ (cs : List Char) (c : Char) ts, (Reader.literals (cs ++ [c])).reverse ++ ts =
      .literal ⟨c, false⟩ :: ((Reader.literals cs).reverse ++ ts) := by
    simp [Reader.literals]
  rw [shape, shape]
  refine .cons ⟨fun m => ?_, Nat.le_refl _⟩ (by simp) (run ?_)
  · rw [after_literal, after_literal]
  · rintro rfl
    simp at several

end Tree

open Regex.Tree

/-- Open groups that mirror each other. -/
structure Frame.Mirrors (f g : Frame) : Prop where
  branches : List.Forall₂ Tree.Mirrors f.branches g.branches
  items : MirrorItems f.items g.items
  kind : f.kind = g.kind
  verbose : f.verbose = g.verbose

namespace Reader

/-- Readers that have read the same but for literals. -/
structure Mirrors (r s : Reader) : Prop where
  stack : List.Forall₂ Frame.Mirrors r.stack s.stack
  branches : List.Forall₂ Tree.Mirrors r.branches s.branches
  items : MirrorItems r.items s.items
  verbose : r.verbose = s.verbose
  nextGroup : r.nextGroup = s.nextGroup
  names : r.names = s.names

/-- Readings that fail in the same way, or leave the same rest to readers that mirror each other. -/
inductive MirrorReadings : Reading Reader → Reading Reader → Prop
  | error (e : SyntaxError) : MirrorReadings (.error e) (.error e)
  | ok {r s : Reader} (rest : List Char) : r.Mirrors s →
      MirrorReadings (.ok (r, rest)) (.ok (s, rest))

variable {r s : Reader}

theorem Mirrors.initial : Mirrors initial initial :=
  ⟨.nil, .nil, .nil, rfl, rfl, rfl⟩

theorem Mirrors.push (mirrors : r.Mirrors s) (t : Tree) : (r.push t).Mirrors (s.push t) :=
  { mirrors with items := mirrors.items.push t }

theorem Mirrors.content (mirrors : r.Mirrors s) : Tree.Mirrors r.content s.content := by
  rw [Reader.content, Reader.content]
  refine .ofBranches (List.rel_append ?_ (.cons mirrors.items.ofSequence .nil))
  exact List.rel_reverse mirrors.branches

theorem Mirrors.branch (mirrors : r.Mirrors s) : r.branch.Mirrors s.branch :=
  { mirrors with
    branches := .cons mirrors.items.ofSequence mirrors.branches
    items := .nil }

theorem Mirrors.enter (mirrors : r.Mirrors s) (kind : GroupKind) (verbose : Bool) :
    (r.enter kind verbose).Mirrors (s.enter kind verbose) :=
  { mirrors with
    stack := .cons ⟨mirrors.branches, mirrors.items, rfl, mirrors.verbose⟩ mirrors.stack
    branches := .nil
    items := .nil
    verbose := rfl }

theorem Mirrors.leave (mirrors : r.Mirrors s) (cs : List Char) :
    MirrorReadings (r.leave.map fun r => (r, cs)) (s.leave.map fun s => (s, cs)) := by
  have piles := mirrors.stack
  rw [Reader.leave, Reader.leave]
  generalize r.stack = frames at piles
  generalize s.stack = frames' at piles
  cases piles with
  | nil => exact .error _
  | @cons f g _ _ frame rest =>
    refine .ok cs { mirrors with
      stack := rest, branches := frame.branches, items := ?_, verbose := frame.verbose }
    rw [← frame.kind]
    exact .cons (mirrors.content.group f.kind) (by simp) frame.items.all

/-- Nothing can be repeated. -/
def Barren (items : List Tree) : Prop := items = [] ∨ ∃ change rest, items = .flags change :: rest

theorem repeatLast_barren (barren : Barren r.items) (min : Nat) (max : Option Nat)
    (greedy : Bool) : r.repeatLast min max greedy = .error .repetitionMissing := by
  rw [Reader.repeatLast]
  rcases barren with none | ⟨change, rest, flags⟩
  · rw [none]
  · rw [flags]

theorem repeatLast_item {t : Tree} {ts : List Tree} (items : r.items = t :: ts)
    (item : ∀ change, t ≠ .flags change) (min : Nat) (max : Option Nat) (greedy : Bool) :
    r.repeatLast min max greedy = .ok { r with items := .rep t min max greedy :: ts } := by
  unfold Reader.repeatLast
  split
  next empty => simp [items] at empty
  next change _ flags =>
    rw [items] at flags
    exact absurd (List.cons.inj flags).1 (item change)
  next last before _ same =>
    rw [items] at same
    obtain ⟨rfl, rfl⟩ := List.cons.inj same
    rfl

/-- Both readers have an item that can be repeated, or none of them has one. -/
theorem Mirrors.last (mirrors : r.Mirrors s) : (Barren r.items ∧ Barren s.items) ∨
    ∃ t u ts us, r.items = t :: ts ∧ s.items = u :: us ∧ (∀ change, t ≠ .flags change) ∧
      (∀ change, u ≠ .flags change) ∧ Tree.Mirrors t u ∧ MirrorsAll ts us := by
  have items := mirrors.items
  generalize r.items = ts at items
  generalize s.items = us at items
  cases items with
  | nil => exact .inl ⟨.inl rfl, .inl rfl⟩
  | @cons t u ts us first flags rest =>
    by_cases change : ∃ change, t = .flags change
    · obtain ⟨change, same⟩ := change
      exact .inl ⟨.inr ⟨change, ts, by rw [same]⟩, .inr ⟨change, us, by rw [(flags change).mp same]⟩⟩
    · exact .inr ⟨t, u, ts, us, rfl, rfl, fun c same => change ⟨c, same⟩,
        fun c same => change ⟨c, (flags c).mpr same⟩, first, rest⟩

theorem Mirrors.repeatLast (mirrors : r.Mirrors s) (min : Nat) (max : Option Nat) (greedy : Bool)
    (cs : List Char) :
    MirrorReadings ((r.repeatLast min max greedy).map fun r => (r, cs))
      ((s.repeatLast min max greedy).map fun s => (s, cs)) := by
  rcases mirrors.last with ⟨left, right⟩ | ⟨t, u, ts, us, left, right, item, item', first, rest⟩
  · rw [repeatLast_barren left, repeatLast_barren right]
    exact .error _
  · rw [repeatLast_item left item, repeatLast_item right item']
    exact .ok cs { mirrors with items := .cons (first.rep min max greedy) (by simp) rest }

theorem Mirrors.uncounted (mirrors : r.Mirrors s) (min : Nat) (max : Option Nat) (cs : List Char) :
    MirrorReadings (r.uncounted min max cs) (s.uncounted min max cs) := by
  unfold Reader.uncounted
  split
  · exact mirrors.repeatLast min max false _
  · exact mirrors.repeatLast min max true _

theorem Mirrors.counted (mirrors : r.Mirrors s) (cs : List Char) :
    MirrorReadings (r.step '\x7b' cs) (s.step '\x7b' cs) := by
  have refused : ∀ {r : Reader}, Barren r.items → r.step '\x7b' cs = .error .repetitionMissing := by
    intro r barren
    rcases barren with none | ⟨change, rest, flags⟩
    · simp only [Reader.step, none]
    · simp only [Reader.step, flags]
  have reads : ∀ {r : Reader} {t ts}, r.items = t :: ts → (∀ change, t ≠ .flags change) →
      r.step '\x7b' cs = (Reading.counts r.verbose cs).bind fun read =>
        (r.repeatLast read.1.1 read.1.2.1 read.1.2.2).map fun r => (r, read.2) := by
    intro r t ts items item
    simp only [Reader.step, items, bind_pure_comp]
    cases t with
    | flags change => exact absurd rfl (item change)
    | _ => rfl
  -- Both readers have an item to repeat, or neither has.
  rcases mirrors.last with ⟨left, right⟩ | ⟨t, u, ts, us, left, right, item, item', _⟩
  · rw [refused left, refused right]
    exact .error _
  · rw [reads left item, reads right item', ← mirrors.verbose]
    cases Reading.counts r.verbose cs with
    | error e => exact .error e
    | ok read => exact mirrors.repeatLast _ _ _ _

theorem Mirrors.enterCapture (mirrors : r.Mirrors s) (name : Option String) (cs : List Char) :
    MirrorReadings ((r.enterCapture name).map fun r => (r, cs))
      ((s.enterCapture name).map fun s => (s, cs)) := by
  rw [Reader.enterCapture, Reader.enterCapture, ← mirrors.names, ← mirrors.nextGroup,
    ← mirrors.verbose]
  split
  · exact .error _
  · refine .ok cs ?_
    apply Mirrors.enter
    exact ⟨mirrors.stack, mirrors.branches, mirrors.items, rfl, rfl, rfl⟩

theorem Mirrors.openGroup (mirrors : r.Mirrors s) (cs : List Char) :
    MirrorReadings (r.openGroup cs) (s.openGroup cs) := by
  -- The two spellings of a named group are read alike.
  have named : ∀ text : List Char,
      MirrorReadings ((Reading.groupName [] text).bind fun read =>
          (r.enterCapture (some read.1)).map fun r => (r, read.2))
        ((Reading.groupName [] text).bind fun read =>
          (s.enterCapture (some read.1)).map fun s => (s, read.2)) := by
    intro text
    cases Reading.groupName [] text with
    | error e => exact .error e
    | ok read => exact mirrors.enterCapture _ _
  unfold Reader.openGroup
  simp only [← mirrors.verbose, bind_pure_comp]
  generalize Reading.blanks r.verbose cs = text
  split
  next => exact .error _
  next => exact .error _
  next => exact .error _
  next => exact .error _
  next rest => exact named rest
  next rest _ _ => exact named rest
  next => exact .error _
  next rest _ _ _ _ _ _ _ =>
    cases Reading.flagChange false false ⟨[], []⟩ rest with
    | error e => exact .error e
    | ok read =>
      obtain ⟨change, text⟩ := read
      dsimp only [bind, Except.bind]
      split
      · split
        · exact .error _
        · exact .ok _ { mirrors.push (.flags change) with verbose := rfl }
      · exact .ok _ (mirrors.enter _ _)
      · exact .error _
  next => exact mirrors.enterCapture none _

theorem Mirrors.pushRead (mirrors : r.Mirrors s) (read : Reading Tree) :
    MirrorReadings (r.pushRead read) (s.pushRead read) := by
  cases read with
  | error e => exact .error e
  | ok found => exact .ok _ (mirrors.push _)

/-- A step of one reader is matched by a step of the other. -/
theorem Mirrors.step (mirrors : r.Mirrors s) (c : Char) (cs : List Char) :
    MirrorReadings (r.step c cs) (s.step c cs) := by
  by_cases counts : c = '\x7b'
  · rw [counts]
    exact mirrors.counted cs
  unfold Reader.step
  rw [← mirrors.verbose]
  split
  next => exact mirrors.openGroup cs
  next => exact mirrors.leave cs
  next => exact .ok cs mirrors.branch
  next => exact mirrors.pushRead _
  next => exact mirrors.uncounted 0 (some 1) cs
  next => exact mirrors.uncounted 0 none cs
  next => exact mirrors.uncounted 1 none cs
  next => exact absurd rfl counts
  next => exact mirrors.pushRead _
  next => exact .ok cs (mirrors.push _)
  next => exact .ok cs (mirrors.push _)
  next => exact .ok cs (mirrors.push _)
  next => exact .ok cs (mirrors.push _)

/-- A reader gets over a text item by item, to where another text begins. -/
inductive Passes (more : List Char) : Reader → List Char → Reader → Prop
  | done {r : Reader} : Passes more r [] r
  | step {r next last : Reader} {c : Char} {text cs rest : List Char} :
      Reading.blanks r.verbose (text ++ more) = c :: (cs ++ more) →
      r.step c (cs ++ more) = .ok (next, rest ++ more) → rest.length < text.length →
      Passes more next rest last → Passes more r text last

/-- The reader goes on from where it got to, with the steps that are left. -/
theorem Passes.run {more text : List Char} {last : Reader} (passes : Passes more r text last) :
    ∃ unused, ∀ d, run (d + text.length) r (text ++ more) = run (d + unused) last more := by
  induction passes with
  | done => exact ⟨0, fun d => rfl⟩
  | @step r next last c text cs rest blanks read shorter _ ih =>
    obtain ⟨unused, further⟩ := ih
    refine ⟨text.length - 1 - rest.length + unused, fun d => ?_⟩
    have count : d + text.length = (d + (text.length - 1 - rest.length)) + rest.length + 1 := by
      omega
    rw [count, Reader.run, blanks]
    simp only [read]
    rw [further, Nat.add_assoc]

/-- What one reader gets over, the other does. -/
theorem Passes.mirrored {more text : List Char} {last : Reader} (passes : Passes more r text last)
    (mirrors : r.Mirrors s) : ∃ last', last.Mirrors last' ∧ Passes more s text last' := by
  induction passes generalizing s with
  | done => exact ⟨s, mirrors, .done⟩
  | @step r next last c text cs rest blanks read shorter _ ih =>
    have steps := mirrors.step c (cs ++ more)
    rw [read] at steps
    generalize read' : s.step c (cs ++ more) = reading at steps
    cases steps with
    | ok _ mirrors' =>
      obtain ⟨last', ends, passes⟩ := ih mirrors'
      exact ⟨last', ends, .step (mirrors.verbose ▸ blanks) read' shorter passes⟩

/-- A reader that has read a name. -/
def named (r : Reader) (name : List Char) : Reader :=
  { r with items := (literals name).reverse ++ r.items }

theorem Mirrors.named (mirrors : r.Mirrors s) {a b : List Char} (several : 2 ≤ a.length)
    (some : b ≠ []) : (r.named a).Mirrors (s.named b) :=
  { mirrors with items := mirrors.items.literals several some }

theorem run_named (plain : r.verbose = false) (name cs : List Char) (d : Nat) :
    run (d + name.length) r (escaped name ++ cs) = run d (r.named name) cs := by
  obtain ⟨stack, branches, items, verbose, nextGroup, names⟩ := r
  subst plain
  exact run_escaped stack branches items nextGroup names d name cs

/-- What both readers have read in the end is a pattern, or neither is. -/
theorem Mirrors.finish (mirrors : r.Mirrors s) {t : Tree} (finished : r.finish = .ok t) :
    ∃ u, s.finish = .ok u ∧ Tree.Mirrors t u := by
  have content := mirrors.content
  have piles := mirrors.stack
  rw [Reader.finish] at finished
  split at finished
  next empty =>
    cases finished
    rw [List.isEmpty_iff.mp empty] at piles
    have empty' : s.stack = [] := by
      cases shape : s.stack with
      | nil => rfl
      | cons => rw [shape] at piles; cases piles
    exact ⟨_, by rw [Reader.finish, empty']; rfl, content⟩
  next => cases finished

end Reader

end Ripple.Regex
