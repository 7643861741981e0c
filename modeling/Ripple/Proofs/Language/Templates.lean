import Mathlib.Data.List.Forall2
import Ripple.Language.Extract
import Ripple.Proofs.Regex.Outcomes

/-!
Templates with a name put in. What stands before the name and behind it is read as it is, and the
escaped name is read as the sequence of its characters, whatever they are. So a filled template
stands for a fixed beginning, the characters of the name, and a fixed end, unless the name makes it
too big.
-/

namespace Ripple

namespace Text

/-- The one occurrence of a text is replaced, if its first character occurs nowhere else. -/
theorem replace_once {c : Char} {part new front back : List Char} (before : c ∉ front)
    (behind : c ∉ back) :
    replace (c :: part) new (front ++ ((c :: part) ++ back)) = front ++ (new ++ back) := by
  -- Behind an occurrence as many characters are passed over as it has.
  have skipped : ∀ skip : List Char,
      replaceFrom (c :: part) new skip.length (skip ++ back) = replaceFrom (c :: part) new 0 back := by
    intro skip
    induction skip with
    | nil => rfl
    | cons d skip ih => exact ih
  have rest : replaceFrom (c :: part) new 0 back = back := by
    clear skipped
    induction back with
    | nil => rfl
    | cons d back ih =>
      simp only [List.mem_cons, not_or] at behind
      simp [replaceFrom, behind.1, ih behind.2]
  rw [replace]
  induction front with
  | nil =>
    have found : (c :: part).isPrefixOf (c :: (part ++ back)) = true := by simp
    simp only [List.nil_append, List.cons_append, replaceFrom, found, if_true, List.length_cons,
      Nat.add_sub_cancel, skipped part, rest]
  | cons d front ih =>
    simp only [List.mem_cons, not_or] at before
    simp only [List.cons_append] at ih ⊢
    simp [replaceFrom, before.1, ih before.2]

end Text

namespace Regex

namespace Reader

theorem run_nil (bound : Nat) (r : Reader) : run bound r [] = .ok r := by
  cases bound with
  | zero => rfl
  | succ bound => cases verbose : r.verbose <;> simp [run, Reading.blanks, Reading.skip, verbose]

theorem step_plain {c : Char} (plain : Reading.isMeta c = false) (r : Reader) (cs : List Char) :
    r.step c cs = .ok (r.push (.literal ⟨c, false⟩), cs) := by
  simp only [Reading.isMeta, List.mem_cons, List.not_mem_nil, or_false, decide_eq_false_iff_not,
    not_or] at plain
  unfold step
  split <;> simp_all

theorem step_escaped {c : Char} (special : Reading.isMeta c = true) (r : Reader) (cs : List Char) :
    r.step '\\' (c :: cs) = .ok (r.push (.literal ⟨c, false⟩), cs) := by
  have digit : c.isDigit = false := by
    simp only [Reading.isMeta, List.mem_cons, List.not_mem_nil, or_false, decide_eq_true_eq]
      at special
    rcases special with h | h | h | h | h | h | h | h | h | h | h | h | h | h | h | h | h | h <;>
      subst h <;> rfl
  simp [step, pushRead, Reading.escape, digit, Reading.isEscapable, special]
  rfl

/-- The characters of a name as trees. -/
def literals (name : List Char) : List Tree := name.map fun c => .literal ⟨c, false⟩

/-- The escaped form of a name. -/
def escaped (name : List Char) : List Char :=
  name.flatMap fun c => if Reading.isMeta c then ['\\', c] else [c]

/-- An escaped name is read character by character. -/
theorem run_escaped (stack : List Frame) (branches items : List Tree) (nextGroup : Nat)
    (names : List String) (d : Nat) (name cs : List Char) :
    run (d + name.length) ⟨stack, branches, items, false, nextGroup, names⟩ (escaped name ++ cs) =
      run d ⟨stack, branches, (literals name).reverse ++ items, false, nextGroup, names⟩ cs := by
  induction name generalizing items with
  | nil => rfl
  | cons c name ih =>
    have rest := ih (.literal ⟨c, false⟩ :: items)
    have shape : (literals (c :: name)).reverse ++ items =
        (literals name).reverse ++ .literal ⟨c, false⟩ :: items := by
      simp [literals]
    rw [shape, ← rest]
    by_cases special : Reading.isMeta c = true
    · simp only [escaped, List.flatMap_cons, special, if_true, List.cons_append, List.nil_append,
        List.length_cons, ← Nat.add_assoc, run, Reading.blanks, Bool.false_eq_true, if_false,
        step_escaped special]
      rfl
    · simp only [escaped, List.flatMap_cons, special, if_false, List.cons_append, List.nil_append,
        List.length_cons, ← Nat.add_assoc, run, Reading.blanks, Bool.false_eq_true,
        step_plain (by simpa using special)]
      rfl

/-- What begins an item of its own: neither a sign of laziness nor the name of a boundary. -/
def Fresh (cs : List Char) : Prop := cs.head? ≠ some '?' ∧ cs.head? ≠ some '\x7b'

theorem escaped_fresh (name : List Char) {cs : List Char} (fresh : Fresh cs) :
    Fresh (escaped name ++ cs) := by
  cases name with
  | nil => exact fresh
  | cons c name =>
    by_cases special : Reading.isMeta c = true
    · simp [Fresh, escaped, special]
    · have lazy : c ≠ '?' := by
        rintro rfl
        exact special rfl
      have brace : c ≠ '\x7b' := by
        rintro rfl
        exact special rfl
      simp [Fresh, escaped, special, lazy, brace]

theorem step_edge {cs : List Char} (fresh : Fresh cs) (r : Reader) :
    r.step '\\' ('b' :: cs) = .ok (r.push (.anchor (.word .boundary)), cs) := by
  have edge : Reading.wordEdge r.verbose cs = .ok (.boundary, cs) := by
    cases cs with
    | nil => rfl
    | cons c cs =>
      unfold Reading.wordEdge
      split
      next opens => simp [Fresh, (List.cons.inj opens).1] at fresh
      next => rfl
  have plain : Reading.escape r.verbose ('b' :: cs) = .ok (.anchor (.word .boundary), cs) := by
    simp only [Reading.escape, edge]
    rfl
  rw [step, plain]
  rfl

theorem uncounted_greedy {t : Tree} (item : ∀ change, t ≠ .flags change) (stack : List Frame)
    (branches items : List Tree) (nextGroup : Nat) (names : List String) (min : Nat)
    (max : Option Nat) {cs : List Char} (other : cs.head? ≠ some '?') :
    uncounted ⟨stack, branches, t :: items, false, nextGroup, names⟩ min max cs =
      .ok (⟨stack, branches, .rep t min max true :: items, false, nextGroup, names⟩, cs) := by
  unfold uncounted
  split
  next => simp at other
  next =>
    unfold repeatLast
    split
    next empty => simp at empty
    next change => simp_all
    next => simp_all [Except.map]

end Reader

theorem toRegexes_append {ts us : List Tree} {rs ss : List Regex} {m m' m'' : Mode}
    (first : Tree.toRegexes ts m = .ok (rs, m')) (second : Tree.toRegexes us m' = .ok (ss, m'')) :
    Tree.toRegexes (ts ++ us) m = .ok (rs ++ ss, m'') := by
  induction ts generalizing m rs with
  | nil =>
    cases first
    exact second
  | cons t ts ih =>
    rw [Tree.toRegexes] at first
    rw [List.cons_append, Tree.toRegexes]
    cases here : t.toRegex m with
    | error e => simp [here, bind, Except.bind] at first
    | ok found =>
      obtain ⟨r, next⟩ := found
      cases rest : Tree.toRegexes ts next with
      | error e => simp [here, rest, bind, Except.bind] at first
      | ok others =>
        obtain ⟨rs', last⟩ := others
        simp only [here, rest, bind, Except.bind, pure, Except.pure, Except.ok.injEq,
          Prod.mk.injEq] at first
        obtain ⟨rfl, rfl⟩ := first
        simp only [bind, Except.bind, ih rest, pure, Except.pure, List.cons_append]

theorem toRegexes_literals {m : Mode} (sensitive : m.ignoreCase = false)
    (unicode : m.unicode = true) (name : List Char) :
    Tree.toRegexes (Reader.literals name) m = .ok (name.map char, m) := by
  induction name with
  | nil => rfl
  | cons c name ih =>
    have here : (Tree.literal ⟨c, false⟩).toRegex m = .ok (char c, m) := by
      simp [Tree.toRegex, Mode.charOf, unicode, ofLiteral, caseForms, sensitive, bind, Except.bind,
        pure, Except.pure]
    simp only [Reader.literals] at ih
    simp only [Reader.literals, List.map_cons, Tree.toRegexes, here, ih, bind, Except.bind, pure,
      Except.pure]

theorem depthOfAll_append (ts us : List Tree) :
    Tree.depthOfAll (ts ++ us) = Nat.max (Tree.depthOfAll ts) (Tree.depthOfAll us) := by
  induction ts with
  | nil => simp [Tree.depthOfAll]
  | cons t ts ih => simp only [List.cons_append, Tree.depthOfAll, ih, Nat.max_def]; grind

theorem depthOfAll_literals (name : List Char) : Tree.depthOfAll (Reader.literals name) = 0 := by
  induction name with
  | nil => rfl
  | cons c name ih =>
    simp only [Reader.literals] at ih
    simp [Reader.literals, Tree.depthOfAll, Tree.depth, ih]

theorem depth_ofSequence_le (ts : List Tree) :
    (Tree.ofSequence ts).depth ≤ Tree.depthOfAll ts + 1 := by
  unfold Tree.ofSequence
  split
  · exact Nat.zero_le _
  · exact Nat.le_succ_of_le (Nat.le_max_left _ _)
  · exact Nat.le_refl _

end Regex

namespace Language

open Regex

/-- What stands before and behind the name in a template. -/
abbrev Form := List Regex × List Regex

/-- A form with a name put in. -/
def Form.filled (form : Form) (name : String) : Regex :=
  seqs (form.1 ++ name.toList.map char ++ form.2)

/-- Whatever name is put into a template, the template stands for the form with this name, unless
that is too big. -/
def Fills (t : String) (form : Form) : Prop :=
  ∀ name : String,
    let source := fill t (Pattern.escape name)
    (∃ names, Pattern.compile source = .ok ⟨source, form.filled name, names⟩) ∨
      (Pattern.compile source = .error .tooBig ∧ sizeLimit < (form.filled name).sizeBound + 400)

theorem length_le_escaped (name : List Char) : name.length ≤ (Reader.escaped name).length := by
  induction name with
  | nil => exact Nat.le_refl _
  | cons c name ih =>
    simp only [Reader.escaped] at ih
    simp only [Reader.escaped, List.flatMap_cons, List.length_append, List.length_cons]
    split <;> simp only [List.length_cons, List.length_nil] <;> omega

theorem ofSequence_eq_cat {ts : List Tree} (several : 2 ≤ ts.length) :
    Tree.ofSequence ts = .cat ts := by
  match ts with
  | [] | [_] => simp at several
  | _ :: _ :: _ => rfl

/-- A filled template is read as what stands before the name, the name, and what stands behind it.
Lists of items are kept latest first, as the reader keeps them. -/
theorem parse_filled {front back : List Char} {k l : Nat} {items more : List Tree}
    {nextGroup : Nat} {names : List String}
    (starts : ∀ d rest, Reader.Fresh rest → Reader.run (d + k) .initial (front ++ rest) =
      Reader.run d ⟨[], [], items, false, nextGroup, names⟩ rest)
    (stops : ∀ d items, Reader.run (d + l) ⟨[], [], items, false, nextGroup, names⟩ back =
      Reader.run d ⟨[], [], more ++ items, false, nextGroup, names⟩ [])
    (few : k ≤ front.length ∧ l ≤ back.length) (fresh : Reader.Fresh back)
    (shallow : Tree.depthOfAll (items.reverse ++ more.reverse) < nestLimit) (name : List Char) :
    Tree.parse (front ++ (Reader.escaped name ++ back)) =
      .ok (.ofSequence (items.reverse ++ (Reader.literals name ++ more.reverse))) := by
  -- Every step reads a character at least, so the length of the text is fuel enough.
  have size : ∃ d, (front ++ (Reader.escaped name ++ back)).length =
      (d + l + name.length) + k := by
    have longer := length_le_escaped name
    refine ⟨front.length + (Reader.escaped name).length + back.length - k - l - name.length, ?_⟩
    simp only [List.length_append]
    omega
  obtain ⟨d, size⟩ := size
  have read : Reader.run (d + l + name.length + k) .initial
      (front ++ (Reader.escaped name ++ back)) =
      .ok ⟨[], [], more ++ ((Reader.literals name).reverse ++ items), false, nextGroup, names⟩ := by
    rw [starts _ _ (Reader.escaped_fresh name fresh), Reader.run_escaped, stops, Reader.run_nil]
  have order : (more ++ ((Reader.literals name).reverse ++ items)).reverse =
      items.reverse ++ (Reader.literals name ++ more.reverse) := by
    simp
  -- The name adds characters side by side, but no depth.
  have deep : (Tree.ofSequence (items.reverse ++ (Reader.literals name ++ more.reverse))).depth ≤
      nestLimit := by
    refine Nat.le_trans (depth_ofSequence_le _) ?_
    rw [depthOfAll_append] at shallow
    simp only [depthOfAll_append, depthOfAll_literals, Nat.zero_max]
    exact shallow
  rw [Tree.parse, size, read]
  simp only [Reader.finish, Reader.content, order, bind, Except.bind, List.isEmpty_nil, if_true,
    List.reverse_nil, List.nil_append, Tree.ofBranches, deep]
  rfl

/-- A sequence with a place for a name: the trees before the place and behind it. -/
structure Holed where
  before : List Tree
  behind : List Tree

namespace Holed

/-- The sequence with the characters of a name in its place. -/
def filled (h : Holed) (name : List Char) : Tree :=
  .cat (h.before ++ (Reader.literals name ++ h.behind))

/-- What stands before the name in a template and what stands behind it are read, each on its own, as
the two sides of the sequence. -/
def IsRead (h : Holed) (t : String) : Prop :=
  ∃ front back, t = String.ofList (front ++ (placeholder ++ back)) ∧
    Tree.parse front = .ok (.ofSequence h.before) ∧ Tree.parse back = .ok (.ofSequence h.behind)

/-- The sides of the sequence stand for those of a form, and a name between them stands for its
characters as they are. -/
def StandsFor (h : Holed) (form : Form) : Prop :=
  ∃ m m' : Mode, Tree.toRegexes h.before {} = .ok (form.1, m) ∧
    Tree.toRegexes h.behind m = .ok (form.2, m') ∧ m.ignoreCase = false ∧ m.unicode = true

end Holed

/-- A template is read as one sequence with a place for the name, whatever name is put in, and stands
for a form. -/
def Shapes (t : String) (form : Form) : Prop :=
  ∃ h : Holed, h.IsRead t ∧ h.StandsFor form ∧
    ∀ name : String, Tree.parse (fill t (Pattern.escape name)).toList = .ok (h.filled name.toList)

theorem Shapes.fills {t : String} {form : Form} (shapes : Shapes t form) : Fills t form := by
  intro name source
  obtain ⟨h, _, ⟨m, m', first, second, mode⟩, parsed⟩ := shapes
  have regexes := toRegexes_append first
    (toRegexes_append (toRegexes_literals mode.1 mode.2 name.toList) second)
  rw [← List.append_assoc form.1] at regexes
  simp only [source, Pattern.compile, Pattern.compileChars, parsed, Holed.filled, bind, Except.bind,
    Tree.toRegex, regexes, pure, Except.pure]
  -- The pattern is refused only for its size.
  cases fitting : fits _ (seqs (form.1 ++ name.toList.map char ++ form.2)) with
  | true => exact .inl ⟨_, rfl⟩
  | false =>
    refine .inr ⟨rfl, ?_⟩
    rw [fits, Bool.or_eq_false_iff, decide_eq_false_iff_not] at fitting
    exact Nat.lt_of_not_le fitting.1

section Filling

variable {t : String} {front back : List Char} {items : List Tree}
  {extend : List Tree → List Tree} {form : Form} {m m' : Mode}

theorem toList_fill (text : t = String.ofList (front ++ (placeholder ++ back)))
    (once : '\x7b' ∉ front ∧ '\x7b' ∉ back) (name : String) :
    (fill t name).toList = front ++ (name.toList ++ back) := by
  rw [fill, text, String.toList_ofList, String.toList_ofList]
  exact Text.replace_once once.1 once.2

/-- A template whose two sides are read as the two sides of a form. -/
theorem shapes_read {k l : Nat} (text : t = String.ofList (front ++ (placeholder ++ back)))
    (starts : ∀ d rest, Reader.Fresh rest → Reader.run (d + k) .initial (front ++ rest) =
      Reader.run d ⟨[], [], items, false, 1, []⟩ rest)
    (stops : ∀ d items, Reader.run (d + l) ⟨[], [], items, false, 1, []⟩ back =
      Reader.run d ⟨[], [], extend items, false, 1, []⟩ [])
    (added : ∀ items, extend items = extend [] ++ items)
    (first : Tree.toRegexes items.reverse {} = .ok (form.1, m))
    (second : Tree.toRegexes (extend []).reverse m = .ok (form.2, m'))
    (few : k ≤ front.length ∧ l ≤ back.length) (fresh : Reader.Fresh back)
    (several : 2 ≤ items.length + (extend []).length)
    (shallow : Tree.depthOfAll (items.reverse ++ (extend []).reverse) < nestLimit)
    (once : '\x7b' ∉ front ∧ '\x7b' ∉ back)
    (mode : m.ignoreCase = false ∧ m.unicode = true) : Shapes t form := by
  have ends : ∀ d items, Reader.run (d + l) ⟨[], [], items, false, 1, []⟩ back =
      Reader.run d ⟨[], [], extend [] ++ items, false, 1, []⟩ [] :=
    fun d items => (stops d items).trans (by rw [added])
  have none : Reader.Fresh [] := ⟨by simp, by simp⟩
  have sides : Tree.depthOfAll items.reverse < nestLimit ∧
      Tree.depthOfAll (extend []).reverse < nestLimit := by
    rw [depthOfAll_append] at shallow
    exact Nat.max_lt.mp shallow
  -- Each side is read on its own as it is read around a name: the other side and the name are empty.
  refine ⟨⟨items.reverse, (extend []).reverse⟩, ⟨front, back, text, ?_, ?_⟩,
    ⟨m, m', first, second, mode⟩, fun name => ?_⟩
  · have side : Tree.parse (front ++ (Reader.escaped [] ++ [])) =
        .ok (.ofSequence (items.reverse ++ (Reader.literals [] ++ [].reverse))) :=
      parse_filled (l := 0) starts (fun _ _ => rfl) ⟨few.1, Nat.zero_le _⟩ none
        (by simpa using sides.1) []
    simpa [Reader.escaped, Reader.literals] using side
  · have side : Tree.parse ([] ++ (Reader.escaped [] ++ back)) =
        .ok (.ofSequence ([].reverse ++ (Reader.literals [] ++ (extend []).reverse))) :=
      parse_filled (k := 0) (fun _ _ _ => rfl) ends ⟨Nat.zero_le _, few.2⟩ fresh
        (by simpa using sides.2) []
    simpa [Reader.escaped, Reader.literals] using side
  · have chars : (fill t (Pattern.escape name)).toList =
        front ++ (Reader.escaped name.toList ++ back) := by
      rw [toList_fill text once, Pattern.escape, String.toList_ofList]
      rfl
    rw [chars, parse_filled starts ends few fresh shallow, ofSequence_eq_cat, Holed.filled]
    simp only [List.length_append, List.length_reverse]
    omega

theorem fresh_of_unbraced {cs : List Char} (greedy : cs.head? ≠ some '?') (unbraced : '\x7b' ∉ cs) :
    Reader.Fresh cs :=
  ⟨greedy, fun opens => unbraced (List.mem_of_head? opens)⟩

theorem ofList_parts {frontText backText : String} {middle : List Char}
    (frontChars : frontText = String.ofList front) (backChars : backText = String.ofList back)
    (text : t = frontText ++ (String.ofList (middle ++ placeholder) ++ backText)) :
    t = String.ofList ((front ++ middle) ++ (placeholder ++ back)) := by
  rw [text, frontChars, backChars, ← String.ofList_append, ← String.ofList_append]
  simp only [List.append_assoc]

/-- A template in which an operator that repeats the last item stands before the name. -/
theorem shapes_of (frontText : String) (op : Char) (backText : String) (k l : Nat) {min : Nat}
    {max : Option Nat} {last : Tree}
    (frontChars : frontText = String.ofList front) (backChars : backText = String.ofList back)
    (text : t = frontText ++ (String.ofList ([op] ++ placeholder) ++ backText))
    (starts : ∀ d rest, Reader.run (d + k) .initial (front ++ rest) =
      Reader.run d ⟨[], [], last :: items, false, 1, []⟩ rest)
    (repeats : ∀ r cs, Reader.step r op cs = r.uncounted min max cs)
    (item : ∀ change, last ≠ .flags change)
    (stops : ∀ d items, Reader.run (d + l) ⟨[], [], items, false, 1, []⟩ back =
      Reader.run d ⟨[], [], extend items, false, 1, []⟩ [])
    (added : ∀ items, extend items = extend [] ++ items)
    (first : Tree.toRegexes (.rep last min max true :: items).reverse {} = .ok (form.1, m))
    (second : Tree.toRegexes (extend []).reverse m = .ok (form.2, m'))
    (fine : (k ≤ front.length ∧ l ≤ back.length) ∧ back.head? ≠ some '?' ∧ 0 < items.length ∧
      Tree.depthOfAll ((.rep last min max true :: items).reverse ++ (extend []).reverse) < nestLimit ∧
      '\x7b' ∉ front ++ [op] ∧ '\x7b' ∉ back ∧ m.ignoreCase = false ∧ m.unicode = true) :
    Shapes t form := by
  obtain ⟨few, greedy, several, shallow, once, once', mode⟩ := fine
  refine shapes_read (k := k + 1) (ofList_parts frontChars backChars text) ?_ stops added first
    second ?_ (fresh_of_unbraced greedy once') ?_ shallow ⟨once, once'⟩ mode
  · intro d rest fresh
    -- The operator takes one more step, and is greedy, for no question mark can follow it.
    have count : d + (k + 1) = d + 1 + k := by omega
    rw [count, List.append_assoc, starts, List.singleton_append, Reader.run]
    simp only [Reading.blanks, Bool.false_eq_true, if_false, repeats,
      Reader.uncounted_greedy item [] [] items 1 [] min max fresh.1]
  · simp only [List.length_append, List.length_singleton]
    omega
  · simp only [List.length_cons]
    omega

/-- A template in which the edge of a word stands before the name. -/
theorem shapes_at_edge (frontText backText : String) (k l : Nat)
    (frontChars : frontText = String.ofList front) (backChars : backText = String.ofList back)
    (text : t = frontText ++ (String.ofList (['\\', 'b'] ++ placeholder) ++ backText))
    (starts : ∀ d rest, Reader.run (d + k) .initial (front ++ '\\' :: 'b' :: rest) =
      Reader.run d ⟨[], [], items, false, 1, []⟩ ('\\' :: 'b' :: rest))
    (stops : ∀ d items, Reader.run (d + l) ⟨[], [], items, false, 1, []⟩ back =
      Reader.run d ⟨[], [], extend items, false, 1, []⟩ [])
    (added : ∀ items, extend items = extend [] ++ items)
    (first : Tree.toRegexes (.anchor (.word .boundary) :: items).reverse {} = .ok (form.1, m))
    (second : Tree.toRegexes (extend []).reverse m = .ok (form.2, m'))
    (fine : (k ≤ front.length ∧ l ≤ back.length) ∧ back.head? ≠ some '?' ∧
      0 < (extend []).length ∧ Tree.depthOfAll ((.anchor (.word .boundary) :: items).reverse ++
        (extend []).reverse) < nestLimit ∧
      '\x7b' ∉ front ++ ['\\', 'b'] ∧ '\x7b' ∉ back ∧ m.ignoreCase = false ∧ m.unicode = true) :
    Shapes t form := by
  obtain ⟨few, greedy, several, shallow, once, once', mode⟩ := fine
  refine shapes_read (k := k + 1) (ofList_parts frontChars backChars text) ?_ stops added first
    second ?_ (fresh_of_unbraced greedy once') ?_ shallow ⟨once, once'⟩ mode
  · intro d rest fresh
    -- The two characters of the edge are read in one step.
    have count : d + (k + 1) = d + 1 + k := by omega
    rw [count, List.append_assoc, List.cons_append, List.singleton_append, starts, Reader.run]
    simp only [Reading.blanks, Bool.false_eq_true, if_false, Reader.step_edge fresh]
    rfl
  · simp only [List.length_append, List.length_cons, List.length_nil]
    omega
  · simp only [List.length_cons]
    omega

end Filling

/-- The templates of a language have the given forms. -/
def Formed (l : Language) (forms : List Form) : Prop := List.Forall₂ Fills l.templates forms

/-- The templates of a language are read as sequences that stand for the given forms. -/
def Shaped (l : Language) (forms : List Form) : Prop := List.Forall₂ Shapes l.templates forms

theorem Shaped.formed {l : Language} {forms : List Form} (shaped : l.Shaped forms) :
    l.Formed forms :=
  List.Forall₂.imp (fun _ _ => Shapes.fills) shaped

/-- Either all templates can be filled with a name, or one of them gets too big by it. -/
theorem Formed.cases {l : Language} {forms : List Form} (formed : l.Formed forms) (name : String) :
    (∃ patterns, l.dependencyPatterns name = .ok patterns ∧
      patterns.map (·.regex) = forms.map (·.filled name)) ∨
    (l.dependencyPatterns name = .error .tooBig ∧
      ∃ form ∈ forms, sizeLimit < (form.filled name).sizeBound + 400) := by
  rw [dependencyPatterns, compileTemplates]
  obtain ⟨templates, same⟩ : ∃ templates, l.templates = templates := ⟨_, rfl⟩
  rw [Formed, same] at formed
  rw [same]
  clear same
  induction formed with
  | nil => exact .inl ⟨[], rfl, rfl⟩
  | @cons t form templates forms fills _ ih =>
    rw [List.mapM_cons]
    rcases fills name with ⟨names, compiled⟩ | ⟨refused, big⟩
    · rcases ih with ⟨patterns, rest, each⟩ | ⟨refused, form', member, big⟩
      · refine .inl ⟨_ :: patterns, by simp only [compiled, rest]; rfl, ?_⟩
        rw [List.map_cons, List.map_cons, each]
      · exact .inr ⟨by simp only [compiled, refused]; rfl, form', List.mem_cons_of_mem _ member, big⟩
    · exact .inr ⟨by simp only [refused]; rfl, form, List.mem_cons_self, big⟩

/-- The bounds of some parts together. -/
def partsBound : List Regex → Nat
  | [] => 0
  | r :: rs => r.sizeBound + partsBound rs

theorem partsBound_append (rs ss : List Regex) :
    partsBound (rs ++ ss) = partsBound rs + partsBound ss := by
  induction rs with
  | nil => simp [partsBound]
  | cons r rs ih => simp only [List.cons_append, partsBound, ih, Nat.add_assoc]

theorem sizeBound_seqs_le (rs : List Regex) : (seqs rs).sizeBound ≤ partsBound rs + 32 := by
  induction rs with
  | nil => simp [seqs, sizeBound]
  | cons r rs ih =>
    cases rs with
    | nil => simp [seqs, partsBound]
    | cons s rs =>
      simp only [seqs, sizeBound, partsBound] at ih ⊢
      omega

theorem partsBound_chars (name : List Char) :
    partsBound (name.map char) = 80 * Point.size name := by
  induction name with
  | nil => rfl
  | cons c name ih =>
    simp only [List.map_cons, partsBound, ih, sizeBound, Point.size_cons]
    omega

/-- Only a long name makes a pattern too big. -/
theorem Form.size_of_tooBig {form : Form} (small : partsBound (form.1 ++ form.2) ≤ 2000000)
    {name : String} (big : sizeLimit < (form.filled name).sizeBound + 400) :
    100000 < Point.size name.toList := by
  have bound := sizeBound_seqs_le (form.1 ++ name.toList.map char ++ form.2)
  simp only [partsBound_append, partsBound_chars] at bound small
  simp only [Form.filled, sizeLimit] at big
  omega

/-- Names of a moderate length do not make a pattern too big. -/
theorem Formed.not_tooBig {l : Language} {forms : List Form} (formed : l.Formed forms)
    (small : ∀ form ∈ forms, partsBound (form.1 ++ form.2) ≤ 2000000) {name : String}
    (short : Point.size name.toList ≤ 100000) :
    l.dependencyPatterns name ≠ .error .tooBig := by
  intro refused
  rcases formed.cases name with ⟨patterns, compiled, _⟩ | ⟨_, form, member, big⟩
  · rw [compiled] at refused
    contradiction
  · exact Nat.not_lt.mpr short (form.size_of_tooBig (small form member) big)

end Language

end Ripple
