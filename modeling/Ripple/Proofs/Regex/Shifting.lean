import Mathlib.Data.List.Forall2
import Ripple.Proofs.Regex.Outcomes
import Ripple.Proofs.Text.LineEnds

/-!
Matches and line ends. An expression is followed through a text and through the same text with a
carriage return in front of each line feed. What it finds in the one it finds in the other, but for
ways that come to a halt between the two characters of a line end. Whether that is so, and whether
an expression ever gets away from such a place, can be read off the expression.
-/

namespace Ripple

open Rounds Text

theorem rel_cases {α β : Type} {R : α → β → Prop} {x : Option α} {y : Option β}
    (related : Option.Rel R x y) :
    (x = none ∧ y = none) ∨ ∃ a b, x = some a ∧ y = some b ∧ R a b := by
  cases related with
  | none => exact .inl ⟨rfl, rfl⟩
  | some here => exact .inr ⟨_, _, rfl, rfl, here⟩

/-- The second list goes with the first, member by member, but for strays. -/
inductive Follows {α β : Type} (R : α → β → Prop) (S : β → Prop) : List α → List β → Prop
  | nil : Follows R S [] []
  | cons {a : α} {b : β} {as : List α} {bs : List β} :
      R a b → Follows R S as bs → Follows R S (a :: as) (b :: bs)
  | stray {b : β} {as : List α} {bs : List β} : S b → Follows R S as bs → Follows R S as (b :: bs)

namespace Follows

variable {α β γ δ : Type} {R : α → β → Prop} {S : β → Prop} {as : List α} {bs : List β}

theorem mono {S' : β → Prop} (weaker : ∀ b, S b → S' b) (follows : Follows R S as bs) :
    Follows R S' as bs := by
  induction follows with
  | nil => exact .nil
  | cons related _ ih => exact .cons related ih
  | stray strays _ ih => exact .stray (weaker _ strays) ih

theorem append {as' : List α} {bs' : List β} (first : Follows R S as bs)
    (second : Follows R S as' bs') : Follows R S (as ++ as') (bs ++ bs') := by
  induction first with
  | nil => exact second
  | cons related _ ih => exact .cons related ih
  | stray strays _ ih => exact .stray strays ih

theorem of_strays (all : ∀ b ∈ bs, S b) : Follows R S [] bs := by
  induction bs with
  | nil => exact .nil
  | cons b bs ih =>
    simp only [List.mem_cons, forall_eq_or_imp] at all
    exact .stray all.1 (ih all.2)

theorem flatMap {R' : γ → δ → Prop} {S' : δ → Prop} {f : α → List γ} {g : β → List δ}
    (follows : Follows R S as bs) (each : ∀ a b, R a b → Follows R' S' (f a) (g b))
    (strays : ∀ b, S b → ∀ d ∈ g b, S' d) : Follows R' S' (as.flatMap f) (bs.flatMap g) := by
  induction follows with
  | nil => exact .nil
  | @cons a b as bs related _ ih =>
    rw [List.flatMap_cons, List.flatMap_cons]
    exact (each a b related).append ih
  | @stray b as bs here _ ih =>
    rw [List.flatMap_cons]
    exact (of_strays (strays b here)).append ih

theorem map {R' : γ → δ → Prop} {S' : δ → Prop} {f : α → γ} {g : β → δ}
    (follows : Follows R S as bs) (each : ∀ a b, R a b → R' (f a) (g b))
    (strays : ∀ b, S b → S' (g b)) : Follows R' S' (as.map f) (bs.map g) := by
  induction follows with
  | nil => exact .nil
  | cons related _ ih => exact .cons (each _ _ related) ih
  | stray here _ ih => exact .stray (strays _ here) ih

theorem forall₂ (follows : Follows R S as bs) (none : ∀ b, ¬ S b) : List.Forall₂ R as bs := by
  induction follows with
  | nil => exact .nil
  | cons related _ ih => exact .cons related ih
  | stray strays => exact absurd strays (none _)

/-- The first of what comes of the members is the same if nothing comes of strays. -/
theorem head?_flatMap {Q : γ → δ → Prop} {f : α → List γ} {g : β → List δ}
    (follows : Follows R S as bs) (each : ∀ a b, R a b → Option.Rel Q (f a).head? (g b).head?)
    (halts : ∀ b, S b → g b = []) :
    Option.Rel Q (as.flatMap f).head? (bs.flatMap g).head? := by
  induction follows with
  | nil => exact .none
  | @cons a b as bs related _ ih =>
    rw [List.flatMap_cons, List.flatMap_cons, List.head?_append, List.head?_append]
    rcases rel_cases (each a b related) with ⟨first, second⟩ | ⟨c, d, first, second, here⟩
    · rw [first, second]
      exact ih
    · rw [first, second]
      exact .some here
  | @stray b as bs here _ ih =>
    rw [List.flatMap_cons, halts b here]
    exact ih

section Rounds

variable {R : α → β → Prop} {next : α → List α} {next' : β → List β}

variable (each : ∀ a b, R a b → Follows R S (next a) (next' b))
  (strays : ∀ b c, S b → c ∈ next' b → S c)

include each strays

theorem exactly (n : Nat) {a : α} {b : β} (related : R a b) :
    Follows R S (exactly next n a) (Rounds.exactly next' n b) := by
  induction n generalizing a b with
  | zero => exact .cons related .nil
  | succ n ih =>
    refine (each a b related).flatMap (fun a b => ih) fun b here c member => ?_
    exact (mem_exactly_iff.mp member).keeps strays here

theorem ends (greedy : Bool) (n : Nat) {a : α} {b : β} (related : R a b) :
    Follows R S (ends next greedy n a) (Rounds.ends next' greedy n b) := by
  induction n generalizing a b with
  | zero => exact .cons related .nil
  | succ n ih =>
    have further := (each a b related).flatMap (fun a b => ih) fun b here c member => by
      obtain ⟨k, _, iterated⟩ := mem_ends_iff.mp member
      exact iterated.keeps strays here
    cases greedy with
    | false => exact .cons related further
    | true => exact further.append (.cons related .nil)

end Rounds

end Follows

namespace Point

/-- A point of a text, and the same point when the lines end in the other way. -/
def Shifts (text : List Char) (p q : Point) : Prop :=
  ∃ w, (start text).Reads w p ∧ (start (crlf text)).Reads (crlf w) q

/-- The point between the two characters of a line end. -/
def Between (p : Point) : Prop := p.before = some '\r' ∧ p.rest.head? = some '\n'

variable {text : List Char} {p q : Point}

theorem start_shifts (text : List Char) : (start text).Shifts text (start (crlf text)) :=
  ⟨[], rfl, rfl⟩

namespace Shifts

theorem rest (shifts : p.Shifts text q) : q.rest = crlf p.rest := by
  obtain ⟨w, reads, reads'⟩ := shifts
  have whole : text = w ++ p.rest := reads.rest_eq
  have whole' : crlf text = crlf w ++ q.rest := reads'.rest_eq
  rw [whole, crlf_append] at whole'
  exact (List.append_cancel_left whole').symm

theorem before (shifts : p.Shifts text q) : q.before = p.before := by
  obtain ⟨w, reads, reads'⟩ := shifts
  rcases List.eq_nil_or_concat' w with rfl | ⟨u, c, rfl⟩
  · rw [reads_nil.mp reads, reads_nil.mp reads']
    rfl
  · rw [reads.before_eq]
    by_cases feed : c = '\n'
    · subst feed
      have ends : crlf (u ++ ['\n']) = (crlf u ++ ['\r']) ++ ['\n'] := by simp
      rw [ends] at reads'
      exact reads'.before_eq
    · rw [crlf_append, crlf_cons feed] at reads'
      exact reads'.before_eq

theorem inside (shifts : p.Shifts text q) : p.In text := by
  obtain ⟨w, reads, _⟩ := shifts
  exact ⟨w, reads⟩

theorem inside' (shifts : p.Shifts text q) : q.In (crlf text) := by
  obtain ⟨w, _, reads⟩ := shifts
  exact ⟨crlf w, reads⟩

theorem behind (shifts : p.Shifts text q) {c : Char} {cs : List Char} (other : c ≠ '\n')
    (next : p.rest = c :: cs) : (p.behind c cs).Shifts text (q.behind c (crlf cs)) := by
  have next' := shifts.rest
  rw [next, crlf_cons other] at next'
  obtain ⟨w, reads, reads'⟩ := shifts
  refine ⟨w ++ [c], reads.trans ⟨cs, next, rfl⟩, ?_⟩
  rw [crlf_append, crlf_cons other]
  exact reads'.trans ⟨_, next', rfl⟩

theorem feed (shifts : p.Shifts text q) {cs : List Char} (next : p.rest = '\n' :: cs) :
    (p.behind '\n' cs).Shifts text
      ((q.behind '\r' ('\n' :: crlf cs)).behind '\n' (crlf cs)) := by
  have next' := shifts.rest
  rw [next, crlf_feed] at next'
  obtain ⟨w, reads, reads'⟩ := shifts
  refine ⟨w ++ ['\n'], reads.trans ⟨cs, next, rfl⟩, ?_⟩
  rw [crlf_append, crlf_feed, crlf_nil]
  exact reads'.trans ⟨_, next', _, rfl, rfl⟩

/-- What stands between two points, in the one form and in the other. -/
theorem charsTo {p' q' : Point} (first : p.Shifts text p') (second : q.Shifts text q') :
    p'.charsTo q' = crlf (p.charsTo q) := by
  obtain ⟨u, reads, reads'⟩ := first
  obtain ⟨v, further, further'⟩ := second
  have whole : u ++ p.rest = v ++ q.rest := reads.rest_eq.symm.trans further.rest_eq
  rcases Nat.le_total (size u) (size v) with ordered | reversed
  · obtain ⟨w, rfl⟩ := eq_append_of_size_le whole ordered
    rw [crlf_append] at further'
    obtain ⟨o, before, behind⟩ := reads_append.mp further
    obtain ⟨o', before', behind'⟩ := reads_append.mp further'
    rw [before.unique reads] at behind
    rw [before'.unique reads'] at behind'
    rw [behind.charsTo_eq, behind'.charsTo_eq]
  · -- Nothing stands between a point and one that is not behind it.
    obtain ⟨w, rfl⟩ := eq_append_of_size_le whole.symm reversed
    have empty : ∀ {p q : Point}, q.offset ≤ p.offset → p.charsTo q = [] := by
      intro p q backward
      rw [Point.charsTo, Nat.sub_eq_zero_of_le backward]
      cases p.rest <;> rfl
    rw [empty, empty, crlf_nil]
    · rw [reads.offset_eq, further.offset_eq, size_append]
      omega
    · rw [reads'.offset_eq, further'.offset_eq, crlf_append, size_append]
      omega

end Shifts

end Point

namespace Match

/-- A match in a text, and the same match when the lines end in the other way. -/
structure Shifts (text : List Char) (m n : Match) : Prop where
  start : m.start.Shifts text n.start
  stop : m.stop.Shifts text n.stop
  entered : List.Forall₂ (fun a b => a.1 = b.1 ∧ a.2.Shifts text b.2) m.entered n.entered
  left : List.Forall₂ (fun a b => a.1 = b.1 ∧ a.2.Shifts text b.2) m.left n.left

namespace Shifts

variable {text : List Char} {m n : Match}

theorem ofPoint {p q : Point} (shifts : p.Shifts text q) :
    (Match.ofPoint p).Shifts text (.ofPoint q) :=
  ⟨shifts, shifts, .nil, .nil⟩

theorem behind (shifts : m.Shifts text n) {c : Char} {cs : List Char} (other : c ≠ '\n')
    (next : m.stop.rest = c :: cs) : (m.behind c cs).Shifts text (n.behind c (crlf cs)) :=
  { shifts with stop := shifts.stop.behind other next }

theorem feed (shifts : m.Shifts text n) {cs : List Char} (next : m.stop.rest = '\n' :: cs) :
    (m.behind '\n' cs).Shifts text ((n.behind '\r' ('\n' :: crlf cs)).behind '\n' (crlf cs)) :=
  { shifts with stop := shifts.stop.feed next }

theorem enter (shifts : m.Shifts text n) (i : Nat) : (m.enter i).Shifts text (n.enter i) :=
  { shifts with entered := .cons ⟨rfl, shifts.stop⟩ shifts.entered }

theorem leave (shifts : m.Shifts text n) (i : Nat) : (m.leave i).Shifts text (n.leave i) :=
  { shifts with left := .cons ⟨rfl, shifts.stop⟩ shifts.left }

end Shifts

end Match

/-- What an expression does between the two characters of a line end: it leads nowhere, it stays
there, or it may go on. -/
inductive Stance where
  | stuck | stays | leaves
  deriving DecidableEq

namespace Stance

def seq : Stance → Stance → Stance
  | stuck, _ => stuck
  | stays, s => s
  | leaves, _ => leaves

def alt : Stance → Stance → Stance
  | stuck, s => s
  | stays, leaves => leaves
  | stays, _ => stays
  | leaves, _ => leaves

/-- What is said about the points that an expression leads to. -/
def Allows : Stance → Point → Point → Prop
  | stuck, _, _ => False
  | stays, p, q => q = p
  | leaves, _, _ => True

theorem Allows.of_left {a : Stance} (b : Stance) {p q : Point} (allows : a.Allows p q) :
    (a.alt b).Allows p q := by
  cases a with
  | stuck => exact allows.elim
  | stays =>
    cases b with
    | stuck | stays => exact allows
    | leaves => trivial
  | leaves => trivial

theorem Allows.of_right (a : Stance) {b : Stance} {p q : Point} (allows : b.Allows p q) :
    (a.alt b).Allows p q := by
  cases a with
  | stuck => exact allows
  | stays =>
    cases b with
    | stuck => exact allows.elim
    | stays => exact allows
    | leaves => trivial
  | leaves => trivial

end Stance

/-- How an expression fares when the lines end in the other way: it finds the same, it also finds
ways that halt within a line end, or nothing is said. -/
inductive Flow where
  | same | straying | lost
  deriving DecidableEq

namespace Flow

def worse : Flow → Flow → Flow
  | lost, _ => lost
  | _, lost => lost
  | straying, _ => straying
  | same, f => f

/-- The flow of one expression behind another one, by what it does with strays of that. -/
def seq : Flow → Stance → Flow → Flow
  | same, _, f => f
  | straying, .stuck, f => f
  | straying, .stays, f => f.worse straying
  | straying, .leaves, _ => lost
  | lost, _, _ => lost

theorem seq_kept {f g : Flow} {s : Stance} (kept : f.seq s g ≠ lost) :
    f ≠ lost ∧ g ≠ lost ∧ (g = straying → f.seq s g = straying) ∧
      (f = straying → s ≠ .leaves ∧ (s = .stays → f.seq s g = straying)) := by
  cases f <;> cases s <;> cases g <;> simp_all [seq, worse]

theorem eq_of_seq_self {f : Flow} {s : Stance} (straying : f.seq s f = .straying) :
    f = .straying := by
  cases f with
  | same => exact straying
  | straying => rfl
  | lost => exact straying

theorem worse_kept {f g : Flow} (kept : f.worse g ≠ lost) : f ≠ lost ∧ g ≠ lost ∧
    (f = straying → f.worse g = straying) ∧ (g = straying → f.worse g = straying) := by
  cases f <;> cases g <;> simp_all [worse]

end Flow

/-- Whether an assertion says the same of a point when the lines end in the other way. -/
def Assertion.flow : Assertion → Flow
  | textStart | textEnd | lineStart | word _ _ => .same
  | lineEnd | crlfLineStart | crlfLineEnd => .lost

namespace Regex

/-- A point between the two characters of a line end. -/
def lineBreak : Point := ⟨1, some '\r', ['\n']⟩

def stance : Regex → Stance
  | empty => .stays
  | char c => if c = '\n' then .leaves else .stuck
  | set s => if s.mem '\n' then .leaves else .stuck
  | assert a => if a.holds lineBreak then .stays else .stuck
  | seq r s => r.stance.seq s.stance
  | alt r s => r.stance.alt s.stance
  | group _ r => r.stance
  | rep r min _ _ => if min = 0 then Stance.stays.alt r.stance else r.stance

/-- Whether any number of rounds goes on from one line to the next. -/
def runsOn : Regex → Bool
  | set s => s.mem '\r' && s.mem '\n'
  | _ => false

def flow : Regex → Flow
  | empty => .same
  | char c => if c = '\n' then .lost else if c = '\r' then .straying else .same
  | set s => if s.mem '\n' then .lost else if s.mem '\r' then .straying else .same
  | assert a => a.flow
  | seq r s => r.flow.seq s.stance s.flow
  | alt r s => r.flow.worse s.flow
  | group _ r => r.flow
  | rep r min max _ =>
    if r.runsOn && min = 0 && max = none then .straying else r.flow.seq r.stance r.flow

/-- From within a line end, an expression leads where its stance allows. -/
theorem Takes.between {r : Regex} {p q : Point} (between : p.Between) (takes : r.Takes p q) :
    r.stance.Allows p q := by
  have next : ∀ {c : Char} {q : Point}, p.Reads [c] q → c = '\n' := by
    rintro c q ⟨cs, rest, _⟩
    simpa [rest] using between.2
  induction r generalizing q with
  | empty => exact takes
  | char c => simp [stance, next takes, Stance.Allows]
  | set s =>
    obtain ⟨c, member, reads⟩ := takes
    rw [next reads] at member
    simp [stance, member, Stance.Allows]
  | assert a =>
    obtain ⟨holds, rfl⟩ := takes
    -- All that an assertion asks for is the same within every line end.
    have same : a.holds q = a.holds lineBreak := by
      obtain ⟨before, rest⟩ := between
      have more : q.rest.isEmpty = false := by
        cases shape : q.rest with
        | nil => simp [shape] at rest
        | cons => rfl
      cases a <;> simp [Assertion.holds, lineBreak, before, rest, more]
    simp [stance, ← same, holds, Stance.Allows]
  | seq r s ihr ihs =>
    obtain ⟨o, first, second⟩ := takes
    have allows := ihr first
    rw [stance]
    cases here : r.stance with
    | stuck => rw [here] at allows; exact allows
    | stays =>
      rw [here] at allows
      obtain rfl : o = p := allows
      exact ihs second
    | leaves => trivial
  | alt r s ihr ihs =>
    rcases takes with takes | takes
    · exact (ihr takes).of_left _
    · exact (ihs takes).of_right _
  | group i r ih => exact ih takes
  | rep r min max greedy ih =>
    obtain ⟨n, least, most, iterated⟩ := takes
    clear most
    rw [stance]
    cases here : r.stance with
    | stuck =>
      -- There is no round at all.
      cases n with
      | zero =>
        rw [if_pos (Nat.le_zero.mp least)]
        exact iterated
      | succ n =>
        obtain ⟨o, first, _⟩ := iterated
        have allows := ih first
        rw [here] at allows
        exact allows.elim
    | stays =>
      rw [here] at ih
      have stays : q = p := by
        clear least
        induction n with
        | zero => exact iterated
        | succ n ihn =>
          obtain ⟨o, first, rest⟩ := iterated
          obtain rfl : o = p := ih first
          exact ihn rest
      split <;> exact stays
    | leaves => split <;> trivial

section Following

variable {text : List Char}

/-- The ways of an expression that came to a halt within a line end. -/
def Strays (r : Regex) (o : Match) : Prop := r.flow = .straying ∧ o.stop.Between

theorem step?_follows {test : Char → Bool} (feed : test '\n' = false) {m n : Match}
    (shifts : m.Shifts text n) :
    Follows (Match.Shifts text) (fun o => test '\r' = true ∧ o.stop.Between)
      (m.step? test).toList (n.step? test).toList := by
  have rest' := shifts.stop.rest
  rw [Match.step?, Match.step?]
  cases rest : m.stop.rest with
  | nil =>
    rw [rest, crlf_nil] at rest'
    rw [rest']
    exact .nil
  | cons c cs =>
    rw [rest] at rest'
    by_cases isFeed : c = '\n'
    · subst isFeed
      rw [crlf_feed] at rest'
      rw [rest']
      simp only [feed, Bool.false_eq_true, if_false]
      -- In front of a line end only the other form can go on, by its carriage return.
      by_cases carriage : test '\r' = true
      · rw [if_pos carriage]
        exact .stray ⟨carriage, rfl, rfl⟩ .nil
      · rw [if_neg carriage]
        exact .nil
    · rw [crlf_cons isFeed] at rest'
      rw [rest']
      by_cases passes : test c = true
      · simp only [passes, if_true]
        exact .cons (shifts.behind isFeed rest) .nil
      · simp only [passes]
        exact .nil

theorem holds_shifts {a : Assertion} (kept : a.flow ≠ .lost) {p q : Point}
    (shifts : p.Shifts text q) : a.holds q = a.holds p := by
  have noWord : Unicode.isWord '\r' = false ∧ Unicode.isWord '\n' = false := by decide +kernel
  have noAsciiWord : Assertion.isAsciiWord '\r' = false ∧ Assertion.isAsciiWord '\n' = false := by
    decide
  have rest := shifts.rest
  have before := shifts.before
  -- The next character may be another one only if both of them begin a line end.
  have next : ∀ {test : Char → Bool}, test '\r' = false → test '\n' = false →
      q.rest.head?.any test = p.rest.head?.any test := by
    intro test carriage feed
    rw [rest]
    cases p.rest with
    | nil => rfl
    | cons c cs =>
      by_cases isFeed : c = '\n'
      · subst isFeed
        simp [carriage, feed]
      · rw [crlf_cons isFeed]
        rfl
  cases a with
  | textStart | lineStart => simp [Assertion.holds, before]
  | textEnd =>
    simp only [Assertion.holds, rest]
    cases p.rest with
    | nil => rfl
    | cons c cs =>
      by_cases isFeed : c = '\n'
      · subst isFeed
        rfl
      · rw [crlf_cons isFeed]
        rfl
  | word edge asciiOnly =>
    cases asciiOnly with
    | false => simp [Assertion.holds, before, next noWord.1 noWord.2]
    | true => simp [Assertion.holds, before, next noAsciiWord.1 noAsciiWord.2]
  | lineEnd | crlfLineStart | crlfLineEnd => exact absurd rfl kept

/-- Any number of characters, line ends among them, lead on to the same points. -/
theorem runsOn_follows {s : CharSet} (carriage : s.mem '\r' = true) (feed : s.mem '\n' = true)
    (greedy : Bool) {k l : Nat} {m n : Match} (shifts : m.Shifts text n)
    (enough : m.stop.rest.length ≤ k) (enough' : n.stop.rest.length ≤ l) :
    Follows (Match.Shifts text) (fun o => o.stop.Between)
      (ends (set s).outcomes greedy k m) (ends (set s).outcomes greedy l n) := by
  have halt : ∀ {o : Match} (k : Nat), (∀ c cs, o.stop.rest = c :: cs → s.mem c = false) →
      ends (set s).outcomes greedy k o = [o] := by
    intro o k last
    have none : (set s).outcomes o = [] := by
      rw [outcomes, Match.step?]
      split
      next c cs rest => simp [last c cs rest]
      next => rfl
    cases k with
    | zero => rfl
    | succ k => cases greedy <;> simp [ends, none]
  have onward : ∀ {o : Match} {c : Char} {cs : List Char} {k : Nat}, o.stop.rest = c :: cs →
      s.mem c = true → 0 < k → ends (set s).outcomes greedy k o =
        if greedy then ends (set s).outcomes greedy (k - 1) (o.behind c cs) ++ [o]
        else o :: ends (set s).outcomes greedy (k - 1) (o.behind c cs) := by
    intro o c cs k rest member positive
    obtain ⟨k, rfl⟩ := Nat.exists_eq_add_one.mpr positive
    simp [ends, outcomes, Match.step?, rest, member]
  generalize rest : m.stop.rest = cs at enough
  have rest' := shifts.stop.rest
  rw [rest] at rest'
  induction cs generalizing k l m n with
  | nil =>
    rw [halt k (by simp [rest]), halt l (by simp [rest'])]
    exact .cons shifts .nil
  | cons c cs ih =>
    rw [rest'] at enough'
    by_cases isFeed : c = '\n'
    · -- The line end is passed in two rounds, with a halt between them.
      subst isFeed
      simp only [crlf_feed, List.length_cons] at rest' enough enough'
      have half : (n.behind '\r' ('\n' :: crlf cs)).stop.rest = '\n' :: crlf cs := rfl
      have left : (crlf cs).length ≤ l - 1 - 1 := by omega
      have further := @ih (k - 1) (l - 1 - 1) _ _ (shifts.feed rest) left rfl (by omega) rfl
      rw [onward rest feed (by omega), onward rest' carriage (by omega),
        onward half feed (by omega)]
      cases greedy with
      | false => exact .cons shifts (.stray ⟨rfl, rfl⟩ further)
      | true =>
        simpa using (further.append (.stray ⟨rfl, rfl⟩ .nil)).append (.cons shifts .nil)
    · rw [crlf_cons isFeed] at rest' enough'
      simp only [List.length_cons] at enough enough'
      cases member : s.mem c with
      | true =>
        have left : (crlf cs).length ≤ l - 1 := by omega
        have further := @ih (k - 1) (l - 1) _ _ (shifts.behind isFeed rest) left rfl (by omega) rfl
        rw [onward rest member (by omega), onward rest' member (by omega)]
        cases greedy with
        | false => exact .cons shifts further
        | true => exact further.append (.cons shifts .nil)
      | false =>
        rw [halt k (by simp [rest, member]), halt l (by simp [rest', member])]
        exact .cons shifts .nil

/-- An expression that does not get on from within a line end leads nowhere or stays there. -/
theorem stays_of_between {r : Regex} (bound : r.stance ≠ .leaves) {m o : Match}
    (between : m.stop.Between) (member : o ∈ r.outcomes m) :
    r.stance = .stays ∧ o.stop = m.stop := by
  have allows := (outcomes_takes member).between between
  cases stance : r.stance with
  | stuck =>
    rw [stance] at allows
    exact allows.elim
  | stays =>
    rw [stance] at allows
    exact ⟨rfl, allows⟩
  | leaves => exact absurd stance bound

theorem rep_follows {r : Regex} {min : Nat} {max : Option Nat} {greedy : Bool}
    (steady : (rep r min max greedy).steady = true) (kept : (rep r min max greedy).flow ≠ .lost)
    (once : r.flow ≠ .lost → ∀ {a b : Match}, a.Shifts text b →
      Follows (Match.Shifts text) r.Strays (r.outcomes a) (r.outcomes b))
    {m n : Match} (shifts : m.Shifts text n) :
    Follows (Match.Shifts text) (rep r min max greedy).Strays
      ((rep r min max greedy).outcomes m) ((rep r min max greedy).outcomes n) := by
  simp only [Regex.steady, Bool.and_eq_true, Bool.or_eq_true, Bool.not_eq_true'] at steady
  by_cases runs : (r.runsOn && min = 0 && max = none) = true
  · have straying : (rep r min max greedy).flow = .straying := by rw [flow, if_pos runs]
    simp only [Bool.and_eq_true, decide_eq_true_eq] at runs
    obtain ⟨⟨both, rfl⟩, rfl⟩ := runs
    cases r with
    | set s =>
      simp only [runsOn, Bool.and_eq_true] at both
      have ends := runsOn_follows both.1 both.2 greedy shifts (Nat.le_refl _) (Nat.le_refl _)
      simpa [outcomes, exactly] using ends.mono fun o between => ⟨straying, between⟩
    | _ => simp [runsOn] at both
  · have rounds : (rep r min max greedy).flow = r.flow.seq r.stance r.flow := by
      rw [flow, if_neg runs]
    rw [rounds] at kept
    obtain ⟨first, _, stray, halt⟩ := Flow.seq_kept kept
    have each : ∀ a b, a.Shifts text b →
        Follows (Match.Shifts text) (rep r min max greedy).Strays (r.outcomes a) (r.outcomes b) :=
      fun a b related => (once first related).mono
        fun o here => ⟨rounds.trans (stray here.1), here.2⟩
    -- What strays in one round strays in all that come behind it.
    have strays : ∀ b c, (rep r min max greedy).Strays b → c ∈ r.outcomes b →
        (rep r min max greedy).Strays c := by
      rintro b c ⟨straying, between⟩ member
      have here := Flow.eq_of_seq_self (rounds.symm.trans straying)
      obtain ⟨_, same⟩ := stays_of_between (halt here).1 between member
      exact ⟨straying, same ▸ between⟩
    refine (Follows.exactly each strays min shifts).flatMap (fun a b related => ?_)
      fun b here c member => ?_
    · cases max with
      | some max => exact Follows.ends each strays greedy _ related
      | none =>
        -- More rounds than there are characters make no difference.
        have consumes : r.nullable = false := by simpa using steady.2
        have longer : a.stop.rest.length ≤ b.stop.rest.length := by
          rw [related.stop.rest]
          exact length_le_crlf _
        have stable := ends_stable (outcomes_forward steady.1 consumes text) greedy
          (show Within text a from related.stop.inside) (Nat.le_refl _) longer
        have same : Rounds.ends r.outcomes greedy a.stop.rest.length a =
          Rounds.ends r.outcomes greedy b.stop.rest.length a := stable
        simp only [Option.map_none, Option.getD_none, same]
        exact Follows.ends each strays greedy _ related
    · obtain ⟨k, _, iterated⟩ := mem_ends_iff.mp member
      exact iterated.keeps strays here

/-- An expression with a flow finds the same in either form, but for its strays. -/
theorem outcomes_follow {r : Regex} (steady : r.steady = true) (kept : r.flow ≠ .lost)
    {m n : Match} (shifts : m.Shifts text n) :
    Follows (Match.Shifts text) r.Strays (r.outcomes m) (r.outcomes n) := by
  -- Both runs are followed at once, through one case for each form of an expression.
  induction r generalizing m n with
  | empty => exact .cons shifts .nil
  | char c =>
    simp only [flow] at kept
    split at kept
    · exact absurd rfl kept
    next other =>
      refine (step?_follows (by simpa using Ne.symm other) shifts).mono fun o strays => ?_
      obtain ⟨carriage, between⟩ := strays
      refine ⟨?_, between⟩
      have same : '\r' = c := by simpa using carriage
      simp [flow, ← same]
  | set s =>
    simp only [flow] at kept
    split at kept
    · exact absurd rfl kept
    next other =>
      have feed : s.mem '\n' = false := by simpa using other
      refine (step?_follows feed shifts).mono fun o strays => ⟨?_, strays.2⟩
      simp [flow, feed, strays.1]
  | assert a =>
    rw [outcomes, outcomes, holds_shifts kept shifts.stop]
    split
    · exact .cons shifts .nil
    · exact .nil
  | seq r s ihr ihs =>
    simp only [Regex.steady, Bool.and_eq_true] at steady
    obtain ⟨first, second, stray, halt⟩ := Flow.seq_kept kept
    refine (ihr steady.1 first shifts).flatMap (fun a b related => ?_) fun b strays d member => ?_
    · exact (ihs steady.2 second related).mono fun o here => ⟨stray here.1, here.2⟩
    · -- Where the first part has come to a halt, the second one does not get on.
      obtain ⟨bound, straying⟩ := halt strays.1
      obtain ⟨stays, same⟩ := stays_of_between bound strays.2 member
      exact ⟨straying stays, same ▸ strays.2⟩
  | alt r s ihr ihs =>
    simp only [Regex.steady, Bool.and_eq_true] at steady
    obtain ⟨first, second, stray, stray'⟩ := Flow.worse_kept kept
    exact ((ihr steady.1 first shifts).mono fun o here => ⟨stray here.1, here.2⟩).append
      ((ihs steady.2 second shifts).mono fun o here => ⟨stray' here.1, here.2⟩)
  | group i r ih =>
    exact (ih steady kept (shifts.enter i)).map (fun a b related => related.leave i)
      fun b strays => strays
  | rep r min max greedy ih =>
    have steady' : r.steady = true := by
      rw [Regex.steady, Bool.and_eq_true] at steady
      exact steady.1
    exact rep_follows steady kept (fun kept => ih steady' kept) shifts

end Following

end Regex

end Ripple
