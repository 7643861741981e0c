import Ripple.Proofs.Regex.Captures
import Ripple.Proofs.Regex.Shifting
import Ripple.Proofs.Regex.Spans

/-!
Searches and line ends. An expression that is stuck within line ends, and that finds the same in
either form of a text, has the same successive matches in both, with the same groups.
-/

namespace Ripple

open Rounds Text

/-- The same point, or the one within the line end in front of it. -/
def Point.Near (text : List Char) (p q : Point) : Prop :=
  ∃ o, p.Shifts text o ∧ (q = o ∨ q.Between ∧ q.Reads ['\n'] o)

/-- The same match, but that the one in the text with carriage returns may end within a line end. -/
def Match.Near (text : List Char) (m n : Match) : Prop :=
  ∃ o, m.Shifts text { n with stop := o } ∧ (n.stop = o ∨ n.stop.Between ∧ n.stop.Reads ['\n'] o)

theorem Match.Near.stop {text : List Char} {m n : Match} (near : m.Near text n) :
    m.stop.Near text n.stop := by
  obtain ⟨o, shifts, halts⟩ := near
  exact ⟨o, shifts.stop, halts⟩

theorem Match.Shifts.near {text : List Char} {m n : Match} (shifts : m.Shifts text n) :
    m.Near text n :=
  ⟨n.stop, shifts, .inl rfl⟩

namespace Regex

/-- Whether the last part of an expression asks for a further character or the end of a line. -/
def closes : Regex → Bool
  | alt (set s) (assert .lineEnd) => s.mem '\r' && s.mem '\n'
  | seq r s => r.flow.seq s.stance .same = .same && s.closes
  | _ => false

section Searching

variable {text : List Char} {r : Regex}

/-- From within a line end an expression that is stuck there finds nothing. -/
theorem outcomes_of_stuck (stuck : r.stance = .stuck) {m : Match} (between : m.stop.Between) :
    r.outcomes m = [] := by
  rw [List.eq_nil_iff_forall_not_mem]
  intro n member
  have allows := (outcomes_takes member).between between
  rw [stuck] at allows
  exact allows

theorem outcomes_start {m n : Match} (member : n ∈ r.outcomes m) : n.start = m.start := by
  have kept : Survives fun n => n.start = m.start := ⟨fun same _ => same, fun _ same => same,
    fun _ same => same⟩
  exact kept.outcomes rfl member

theorem outcomes_forall₂ (steady : r.steady = true) (same : r.flow = .same) {m n : Match}
    (shifts : m.Shifts text n) :
    List.Forall₂ (Match.Shifts text) (r.outcomes m) (r.outcomes n) := by
  have kept : r.flow ≠ .lost := by simp [same]
  refine (outcomes_follow steady kept shifts).forall₂ fun o strays => ?_
  simp [Strays, same] at strays

theorem head?_rel {α β : Type} {R : α → β → Prop} {as : List α} {bs : List β}
    (related : List.Forall₂ R as bs) : Option.Rel R as.head? bs.head? := by
  cases related with
  | nil => exact .none
  | cons first _ => exact .some first

theorem preferred?_shifts (steady : r.steady = true) (same : r.flow = .same) {p q : Point}
    (shifts : p.Shifts text q) :
    Option.Rel (Match.Shifts text) (r.preferred? p) (r.preferred? q) :=
  head?_rel (outcomes_forall₂ steady same (.ofPoint shifts))

/-- The last part ends behind a line feed in one form and within the line end in the other; what
came before it is the same. -/
theorem head?_closes (steady : r.steady = true) (closes : r.closes = true) {m n : Match}
    (shifts : m.Shifts text n) :
    Option.Rel (Match.Near text) (r.outcomes m).head? (r.outcomes n).head? := by
  fun_induction Regex.closes r generalizing m n with
  | case1 s =>
    simp only [Bool.and_eq_true] at closes
    have rest' := shifts.stop.rest
    cases rest : m.stop.rest with
    | nil =>
      rw [rest, crlf_nil] at rest'
      simp only [outcomes, Match.step?, Assertion.holds, rest, rest']
      exact .some ⟨n.stop, shifts, .inl rfl⟩
    | cons c cs =>
      rw [rest] at rest'
      by_cases isFeed : c = '\n'
      · -- The class takes the line feed in one form and the carriage return in the other.
        subst isFeed
        rw [crlf_feed] at rest'
        simp only [outcomes, Match.step?, rest, rest', closes, if_true]
        exact .some ⟨_, shifts.feed rest, .inr ⟨⟨rfl, rfl⟩, _, rfl, rfl⟩⟩
      · rw [crlf_cons isFeed] at rest'
        simp only [outcomes, Match.step?, Assertion.holds, rest, rest']
        cases member : s.mem c with
        | true => exact .some ⟨_, shifts.behind isFeed rest, .inl rfl⟩
        | false => simp [isFeed]
  | case2 r s ih =>
    simp only [Bool.and_eq_true, decide_eq_true_eq] at closes
    simp only [Regex.steady, Bool.and_eq_true] at steady
    have kept : r.flow ≠ .lost := by
      intro lost
      simp [lost, Flow.seq] at closes
    -- Nothing comes of the strays of the first part, since the second one is stuck there.
    refine (outcomes_follow steady.1 kept shifts).head?_flatMap (fun a b => ih steady.2 closes.2)
      fun b strays => outcomes_of_stuck ?_ strays.2
    have flow := closes.1
    rw [strays.1] at flow
    cases here : s.stance with
    | stuck => rfl
    | stays | leaves => simp [here, Flow.seq, Flow.worse] at flow
  | case3 => contradiction

/-- A search from within a line end goes on behind it. -/
theorem search?_between (steady : r.steady = true) (stuck : r.stance = .stuck) {p q : Point}
    (inside : p.In text) (between : p.Between) (reads : p.Reads ['\n'] q) :
    r.search? p = r.search? q := by
  have inside' := inside.reads reads
  obtain ⟨cs, rest, rfl⟩ := reads
  have none : r.preferred? p = none := by
    rw [preferred?, outcomes_of_stuck stuck between]
    rfl
  rw [search?_eq steady inside, search?_eq steady inside', rest, Point.onward, List.findSome?_cons,
    none]
  rfl

variable {R : Match → Match → Prop}

theorem findSome?_rel {f : Point → Option Match} {p q : Point} {ps qs : List Point}
    (here : Option.Rel R (f p) (f q)) (next : Option.Rel R (ps.findSome? f) (qs.findSome? f)) :
    Option.Rel R ((p :: ps).findSome? f) ((q :: qs).findSome? f) := by
  rw [List.findSome?_cons, List.findSome?_cons]
  rcases rel_cases here with ⟨first, second⟩ | ⟨m, n, first, second, related⟩
  · rw [first, second]
    exact next
  · rw [first, second]
    exact .some related

/-- Searches from the same point find the same. -/
theorem search?_rel (steady : r.steady = true) (stuck : r.stance = .stuck)
    (each : ∀ p q, p.Shifts text q → Option.Rel R (r.preferred? p) (r.preferred? q)) {p q : Point}
    (shifts : p.Shifts text q) : Option.Rel R (r.search? p) (r.search? q) := by
  rw [search?_eq steady shifts.inside, search?_eq steady shifts.inside']
  have rest' := shifts.rest
  generalize rest : p.rest = cs at rest'
  rw [rest']
  induction cs generalizing p q with
  | nil =>
    exact findSome?_rel (each p q shifts) .none
  | cons c cs ih =>
    have here := each p q shifts
    by_cases isFeed : c = '\n'
    · -- There is one more starting point in the line end, at which nothing is found.
      subst isFeed
      have next := ih (shifts.feed rest) rfl rfl
      have none : r.preferred? (q.behind '\r' ('\n' :: crlf cs)) = none := by
        rw [preferred?, outcomes_of_stuck stuck ⟨rfl, rfl⟩]
        rfl
      rw [crlf_feed, Point.onward, Point.onward, Point.onward]
      refine findSome?_rel here ?_
      rwa [List.findSome?_cons, none]
    · have next := ih (shifts.behind isFeed rest) rfl rfl
      rw [crlf_cons isFeed]
      exact findSome?_rel here next

theorem search?_near (steady : r.steady = true) (stuck : r.stance = .stuck)
    (each : ∀ p q, p.Shifts text q → Option.Rel R (r.preferred? p) (r.preferred? q)) {p q : Point}
    (near : p.Near text q) (inside : q.In (crlf text)) :
    Option.Rel R (r.search? p) (r.search? q) := by
  obtain ⟨o, shifts, rfl | ⟨between, reads⟩⟩ := near
  · exact search?_rel steady stuck each shifts
  · rw [search?_between steady stuck inside between reads]
    exact search?_rel steady stuck each shifts

/-- What is found goes on at least one character. -/
theorem search?_goes_on (steady : r.steady = true) (consumes : r.nullable = false) {p : Point}
    (inside : p.In text) {m : Match} (found : r.search? p = some m) :
    m.stop.In text ∧ m.stop.rest.length < p.rest.length ∧ m.start.offset < m.stop.offset := by
  rw [search?_eq steady inside] at found
  obtain ⟨q, listed, here⟩ := List.exists_of_findSome?_eq_some found
  obtain ⟨w, reads⟩ := Point.mem_onward_iff.mp listed
  have member := List.mem_of_head? here
  have takes : r.Takes q m.stop := outcomes_takes member
  have shorter := takes.rest_lt consumes
  refine ⟨preferred?_within (inside.reads reads) here, ?_, ?_⟩
  · rw [reads.rest_eq, List.length_append]
    omega
  · obtain ⟨v, further, some⟩ := takes.reads
    have positive : Point.size v ≠ 0 := fun zero => some consumes (Point.size_eq_zero zero)
    rw [outcomes_start member, further.offset_eq]
    simp only [Match.ofPoint]
    omega

theorem nextMatch?_eq (steady : r.steady = true) (consumes : r.nullable = false) {p : Point}
    (inside : p.In text) (last : Option Nat) : r.nextMatch? p last = r.search? p := by
  rw [nextMatch?]
  split
  next none => exact none.symm
  next m found =>
    have longer := (search?_goes_on steady consumes inside found).2.2
    rw [if_neg (by omega), found]

/-- The successive matches in the two forms of a text go together. -/
theorem matchesOf_rel (steady : r.steady = true) (consumes : r.nullable = false)
    (stuck : r.stance = .stuck)
    (each : ∀ p q, p.Shifts text q → Option.Rel R (r.preferred? p) (r.preferred? q))
    (near : ∀ m n, R m n → m.stop.Near text n.stop) :
    List.Forall₂ R (r.matchesOf text) (r.matchesOf (crlf text)) := by
  -- The bounds differ with the lengths of the texts, and where a match has come to its end within a
  -- line end, the next search begins there.
  suffices general : ∀ (bound bound' : Nat) (p q : Point) (last last' : Option Nat)
      (found found' : List Match), p.Near text q → q.In (crlf text) → p.rest.length < bound →
      q.rest.length < bound' → List.Forall₂ R found found' →
      List.Forall₂ R (r.matchesFrom bound p last found) (r.matchesFrom bound' q last' found') by
    refine List.rel_reverse (general _ _ _ _ none none [] [] ⟨_, Point.start_shifts text, .inl rfl⟩
      (Point.start_in _) ?_ ?_ .nil)
    · exact Nat.lt_succ_self _
    · exact Nat.lt_succ_self _
  intro bound
  induction bound with
  | zero =>
    intro bound' p q last last' found found' _ _ small
    exact absurd small (Nat.not_lt_zero _)
  | succ bound ih =>
    intro bound' p q last last' found found' here inside' enough enough' before
    cases bound' with
    | zero => exact absurd enough' (Nat.not_lt_zero _)
    | succ bound' =>
      have inside : p.In text := by
        obtain ⟨o, shifts, _⟩ := here
        exact shifts.inside
      rw [matchesFrom, matchesFrom, nextMatch?_eq steady consumes inside,
        nextMatch?_eq steady consumes inside']
      rcases rel_cases (search?_near steady stuck each here inside') with
        ⟨first, second⟩ | ⟨m, n, first, second, related⟩
      · rw [first, second]
        exact before
      · obtain ⟨_, shorter, _⟩ := search?_goes_on steady consumes inside first
        obtain ⟨within, shorter', _⟩ := search?_goes_on steady consumes inside' second
        rw [first, second]
        exact ih bound' _ _ _ _ _ _ (near m n related) within (by omega) (by omega)
          (.cons related before)

theorem search?_shifts (steady : r.steady = true) (stuck : r.stance = .stuck)
    (same : r.flow = .same) (text : List Char) :
    Option.Rel (Match.Shifts text) (r.search? (.start text)) (r.search? (.start (crlf text))) :=
  search?_rel steady stuck (fun _ _ => preferred?_shifts steady same) (Point.start_shifts text)

theorem matchesIn_crlf (steady : r.steady = true) (stuck : r.stance = .stuck)
    (same : r.flow = .same) (text : List Char) : r.matchesIn (crlf text) = r.matchesIn text := by
  rw [matchesIn, matchesIn]
  rcases rel_cases (search?_shifts steady stuck same text) with
    ⟨first, second⟩ | ⟨m, n, first, second, _⟩
  · rw [first, second]
  · rw [first, second]
    rfl

/-- Whether an expression has the same matches in either form of a text. -/
def settled (r : Regex) : Bool :=
  r.steady && !r.nullable && r.stance = .stuck && r.flow = .same

/-- Whether it has, but for where its matches end. -/
def nearlySettled (r : Regex) : Bool :=
  r.steady && !r.nullable && r.stance = .stuck && (r.flow = .same || r.closes)

theorem settled_iff : r.settled = true ↔
    r.steady = true ∧ r.nullable = false ∧ r.stance = .stuck ∧ r.flow = .same := by
  simp [settled, and_assoc]

theorem nearlySettled_iff : r.nearlySettled = true ↔ r.steady = true ∧ r.nullable = false ∧
    r.stance = .stuck ∧ (r.flow = .same ∨ r.closes = true) := by
  simp [nearlySettled, and_assoc]

theorem matchesOf_shifts (settled : r.settled = true) (text : List Char) :
    List.Forall₂ (Match.Shifts text) (r.matchesOf text) (r.matchesOf (crlf text)) := by
  obtain ⟨steady, consumes, stuck, same⟩ := settled_iff.mp settled
  exact matchesOf_rel steady consumes stuck (fun p q => preferred?_shifts steady same)
    fun m n shifts => shifts.near.stop

theorem matchesOf_near (settled : r.nearlySettled = true) (text : List Char) :
    List.Forall₂ (Match.Near text) (r.matchesOf text) (r.matchesOf (crlf text)) := by
  obtain ⟨steady, consumes, stuck, same | closes⟩ := nearlySettled_iff.mp settled
  · have fully := settled_iff.mpr ⟨steady, consumes, stuck, same⟩
    exact (matchesOf_shifts fully text).imp fun m n shifts => shifts.near
  · exact matchesOf_rel steady consumes stuck
      (fun p q shifts => head?_closes steady closes (.ofPoint shifts)) fun m n near => near.stop

theorem start_lt_stop (steady : r.steady = true) (consumes : r.nullable = false) {m : Match}
    (found : m ∈ r.matchesOf text) : m.start.offset < m.stop.offset := by
  refine matchesOf_of_search (P := fun m => m.start.offset < m.stop.offset)
    (fun inside found => ?_) found
  obtain ⟨within, _, longer⟩ := search?_goes_on steady consumes inside found
  exact ⟨longer, within⟩

end Searching

section Groups

variable {text : List Char}

theorem lookup_rel {xs ys : List (Nat × Point)}
    (related : List.Forall₂ (fun a b => a.1 = b.1 ∧ a.2.Shifts text b.2) xs ys) (i : Nat) :
    Option.Rel (Point.Shifts text) (xs.lookup i) (ys.lookup i) := by
  induction related with
  | nil => exact .none
  | @cons a b xs ys first _ ih =>
    obtain ⟨j, p⟩ := a
    obtain ⟨k, q⟩ := b
    obtain ⟨same, shifts⟩ := first
    obtain rfl : j = k := same
    rw [List.lookup_cons, List.lookup_cons]
    cases i == j with
    | true => exact .some shifts
    | false => exact ih

/-- A group is remembered between the same points. -/
theorem group?_rel {m n : Match} (near : m.Near text n) (i : Nat) :
    Option.Rel (fun g h => g.1.Shifts text h.1 ∧ g.2.Shifts text h.2) (m.group? i)
      (n.group? i) := by
  obtain ⟨o, shifts, _⟩ := near
  rw [Match.group?, Match.group?]
  rcases rel_cases (lookup_rel shifts.entered i) with
    ⟨first, second⟩ | ⟨p, q, first, second, begins⟩
  · rw [first, second]
    exact .none
  · rcases rel_cases (lookup_rel shifts.left i) with ⟨third, fourth⟩ | ⟨p', q', third, fourth, ends⟩
    · rw [first, second, third, fourth]
      exact .none
    · rw [first, second, third, fourth]
      exact .some ⟨begins, ends⟩

/-- Whether an expression never reads a character. -/
def avoids (c : Char) : Regex → Bool
  | empty | assert _ => true
  | char d => d ≠ c
  | set s => !s.mem c
  | seq r s | alt r s => r.avoids c && s.avoids c
  | group _ r | rep r _ _ _ => r.avoids c

/-- Whether a group never reads a character, wherever it occurs in an expression. -/
def groupAvoids (i : Nat) (c : Char) : Regex → Bool
  | empty | char _ | set _ | assert _ => true
  | seq r s | alt r s => r.groupAvoids i c && s.groupAvoids i c
  | group j r => if j = i then !r.hasGroup i && r.avoids c else r.groupAvoids i c
  | rep r _ _ _ => r.groupAvoids i c

theorem readsOnly_of_avoids {r : Regex} {c : Char} (avoids : r.avoids c = true) :
    r.ReadsOnly (· ≠ c) := by
  induction r with
  | empty | assert => trivial
  | char d => simpa [Regex.avoids, ReadsOnly] using avoids
  | set s =>
    rintro d member rfl
    simp [Regex.avoids, member] at avoids
  | seq r s ihr ihs | alt r s ihr ihs =>
    simp only [Regex.avoids, Bool.and_eq_true] at avoids
    exact ⟨ihr avoids.1, ihs avoids.2⟩
  | group _ r ih | rep r _ _ _ ih => exact ih avoids

theorem Takes.avoids {r : Regex} {c : Char} (avoids : r.avoids c = true) {p q : Point}
    (takes : r.Takes p q) : ∃ w, p.Reads w q ∧ c ∉ w := by
  obtain ⟨w, reads, others⟩ := takes.readsOnly (readsOnly_of_avoids avoids)
  exact ⟨w, reads, fun member => others c member rfl⟩

/-- A group never reads a character if none of its parts does. -/
theorem bodies_of_groupAvoids {r : Regex} {i : Nat} {c : Char} (avoids : r.groupAvoids i c = true) :
    ∀ part ∈ r.bodies i, part.hasGroup i = false ∧ part.avoids c = true := by
  induction r with
  | empty | char | set | assert => simp [bodies]
  | seq r s ihr ihs | alt r s ihr ihs =>
    simp only [groupAvoids, Bool.and_eq_true] at avoids
    exact List.forall_mem_append.mpr ⟨ihr avoids.1, ihs avoids.2⟩
  | group j r ih =>
    rw [groupAvoids] at avoids
    rw [bodies]
    split at avoids
    next same => simpa [same] using avoids
    next other => simpa [other] using ih avoids
  | rep r min max greedy ih => exact ih avoids

/-- A group that reads no line feed is the same in either form. -/
theorem group?_spared {r : Regex} {i : Nat} (avoids : r.groupAvoids i '\n' = true) {p : Point}
    {m n : Match} (preferred : r.preferred? p = some m) (near : m.Near text n) :
    Option.Rel (fun g h => g.1.Shifts text h.1 ∧ h.1.charsTo h.2 = g.1.charsTo g.2)
      (m.group? i) (n.group? i) := by
  have parts := bodies_of_groupAvoids avoids
  rcases rel_cases (group?_rel near i) with ⟨first, second⟩ | ⟨g, h, first, second, begins, ends⟩
  · rw [first, second]
    exact .none
  · rw [first, second]
    refine .some ⟨begins, ?_⟩
    obtain ⟨part, listed, takes⟩ :=
      preferred?_extent (fun part listed => (parts part listed).1) preferred first
    obtain ⟨w, reads, absent⟩ := takes.avoids (parts part listed).2
    rw [begins.charsTo ends, reads.charsTo_eq, crlf_eq_self absent]

end Groups

section Parts

/-- Whether parts lead nowhere from within a line end, whatever follows them. -/
def blocks : List Regex → Bool
  | [] => false
  | r :: rs =>
    match r.stance with
    | .stuck => true
    | .stays => blocks rs
    | .leaves => false

/-- Whether parts find the same in either form, whatever follows them. -/
def settles : List Regex → Bool
  | [] => true
  | r :: rs => (r.flow = .same || r.flow = .straying && blocks rs) && settles rs

theorem stance_seqs_cons (r : Regex) (rs : List Regex) :
    (seqs (r :: rs)).stance = r.stance.seq (seqs rs).stance := by
  cases rs with
  | nil => cases here : r.stance <;> simp [seqs, stance, here, Stance.seq]
  | cons s rs => rfl

theorem flow_seqs_cons (r : Regex) (rs : List Regex) :
    (seqs (r :: rs)).flow = r.flow.seq (seqs rs).stance (seqs rs).flow := by
  cases rs with
  | nil => cases here : r.flow <;> simp [seqs, stance, flow, here, Flow.seq, Flow.worse]
  | cons s rs => rfl

theorem stance_seqs_append {front : List Regex} (blocked : blocks front = true)
    (rest : List Regex) : (seqs (front ++ rest)).stance = .stuck := by
  induction front with
  | nil => simp [blocks] at blocked
  | cons r front ih =>
    rw [List.cons_append, stance_seqs_cons]
    rw [blocks] at blocked
    cases here : r.stance with
    | stuck => rfl
    | stays =>
      rw [here] at blocked
      exact ih blocked
    | leaves => simp [here] at blocked

theorem flow_seqs_append {front : List Regex} (settled : settles front = true) (rest : List Regex) :
    (seqs (front ++ rest)).flow = (seqs rest).flow := by
  induction front with
  | nil => rfl
  | cons r front ih =>
    simp only [settles, Bool.and_eq_true, Bool.or_eq_true, decide_eq_true_eq] at settled
    rw [List.cons_append, flow_seqs_cons, ih settled.2]
    rcases settled.1 with same | ⟨straying, blocked⟩
    · rw [same]
      rfl
    · rw [straying, stance_seqs_append blocked]
      rfl

theorem settles_chars {name : List Char} (feed : '\n' ∉ name) (carriage : '\r' ∉ name) :
    settles (name.map char) = true := by
  induction name with
  | nil => rfl
  | cons c name ih =>
    simp only [List.mem_cons, not_or] at feed carriage
    simp [settles, flow, Ne.symm feed.1, Ne.symm carriage.1, ih feed.2 carriage.2]

end Parts

end Regex

end Ripple
