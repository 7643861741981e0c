import Ripple.Proofs.Regex.Outcomes

/-!
Matching computes the thinned list of outcomes. Repetitions of single characters are followed up in
one sweep, which stops where an earlier sweep has been; all others are explored round by round.
-/

namespace Ripple

open Rounds

namespace Regex

/-- The match with the next character, if that passes the test. -/
def singly (test : Char → Bool) (m : Match) : List Match := (m.step? test).toList

theorem singly_cons {test : Char → Bool} {m : Match} {c : Char} {cs : List Char}
    (rest : m.stop.rest = c :: cs) :
    singly test m = if test c then [m.behind c cs] else [] := by
  simp only [singly, Match.step?, rest]
  split <;> rfl

theorem singly_nil {test : Char → Bool} {m : Match} (rest : m.stop.rest = []) :
    singly test m = [] := by
  rw [singly, Match.step?, rest]
  rfl

theorem run_append (test : Char → Bool) (known : Nat → Bool) (cs : List Char) (limit : Option Nat)
    (m : Match) (found : List Match) :
    run test known cs limit m found = run test known cs limit m [] ++ found := by
  induction cs generalizing limit m found with
  | nil => rfl
  | cons c cs ih =>
    simp only [run]
    split
    · split
      · rfl
      · rw [ih, ih _ _ [_], List.append_assoc, List.singleton_append]
    · rfl

/-- A sweep that nothing stops lists all ends, the longest first. -/
theorem run_eq_ends (test : Char → Bool) (limit : Option Nat) (m : Match) :
    run test (fun _ => false) m.stop.rest limit m [m] =
      ends (singly test) true (limit.getD m.stop.rest.length) m := by
  generalize rest : m.stop.rest = cs
  induction cs generalizing limit m with
  | nil =>
    cases limit.getD 0 with
    | zero => rfl
    | succ n => simp [run, ends, singly_nil rest]
  | cons c cs ih =>
    -- The sweep goes on as long as the limit and the next character allow.
    by_cases goes : limit ≠ some 0 ∧ test c = true
    · have count : limit.getD (c :: cs).length = (limit.map (· - 1)).getD cs.length + 1 := by
        rcases limit with _ | _ | n <;> simp_all
      have step := ih (limit.map (· - 1)) (m.behind c cs) rfl
      rw [run_append] at step
      rw [run, if_pos goes, if_neg Bool.false_ne_true, run_append, count, ends, if_pos rfl,
        singly_cons rest, if_pos goes.2, List.flatMap_singleton, ← step, List.append_assoc,
        List.singleton_append]
    · rw [run, if_neg goes]
      cases count : limit.getD (c :: cs).length with
      | zero => rfl
      | succ n =>
        have fails : test c = false := by
          rcases limit with _ | _ | n <;> simp_all
        simp [ends, singly_cons rest, fails]

theorem runOne_eq (test : Char → Bool) (limit : Option Nat) (greedy : Bool) (m : Match) :
    runOne test limit greedy m =
      ends (singly test) greedy (limit.getD m.stop.rest.length) m := by
  rw [runOne, run_eq_ends]
  cases greedy with
  | true => rfl
  | false =>
    have single : (fun m => (singly test m).reverse) = singly test := by
      funext m
      rw [singly]
      cases m.step? test <;> rfl
    simp only [Bool.false_eq_true, if_false, reverse_ends, single]

theorem lt_offset_behind (m : Match) (c : Char) (cs : List Char) :
    m.offset < (m.behind c cs).offset := by
  have := c.utf8Size_pos
  simp only [Match.offset, Match.behind, Point.behind]
  omega

/-- A sweep looks only at what is known of the points behind the match. -/
theorem run_congr {test : Char → Bool} {known other : Nat → Bool} (cs : List Char)
    (limit : Option Nat) (m : Match) (found : List Match)
    (same : ∀ o, m.offset < o → known o = other o) :
    run test known cs limit m found = run test other cs limit m found := by
  induction cs generalizing limit m found with
  | nil => rfl
  | cons c cs ih =>
    have later := lt_offset_behind m c cs
    simp only [run, same _ later]
    split
    · split
      · rfl
      · exact ih _ _ _ fun o after => same o (Nat.lt_trans later after)
    · rfl

theorem contains_foldl_insert (ms : List Match) (seen : Std.TreeSet Nat) (o : Nat) :
    (ms.foldl (fun seen m => seen.insert m.offset) seen).contains o = true ↔
      o ∈ ms.map Match.offset ∨ seen.contains o = true := by
  induction ms generalizing seen with
  | nil => simp
  | cons m ms ih =>
    simp only [List.foldl_cons, ih, Std.TreeSet.contains_insert, Bool.or_eq_true, beq_iff_eq,
      Nat.compare_eq_eq, List.map_cons, List.mem_cons, @eq_comm Nat o]
    grind

theorem singly_forward (test : Char → Bool) (text : List Char) :
    Forward (Within text) Match.offset remaining (singly test) where
  stays := by
    intro m n inside member
    obtain ⟨c, _, reads⟩ := takes_single member
    exact Point.In.reads inside reads
  keys_eq := by
    intro m n inside inside' same x member
    obtain ⟨c, passes, reads⟩ := takes_single member
    rw [inside.eq_of_offset inside' same] at reads
    obtain ⟨y, member', equal⟩ := exists_single passes reads
    exact List.mem_map.mpr ⟨y, member', by rw [Match.offset, Match.offset, equal]⟩
  descends := by
    intro m n _ member
    obtain ⟨c, _, reads⟩ := takes_single member
    rw [remaining, remaining, reads.rest_eq]
    simp
  rank_eq inside inside' same := by
    rw [remaining, remaining, inside.eq_of_offset inside' same]

/-- Exploring what the next character leads to adds the rest of the sweep. -/
theorem explore_next (test : Char → Bool) (greedy : Bool) (seen : Std.TreeSet Nat)
    (found : List Match) (m : Match) :
    let sweep := run test seen.contains m.stop.rest none m []
    (singly test m).foldl (explore test greedy) ⟨seen.insert m.offset, found⟩ =
      ⟨sweep.foldl (fun seen m => seen.insert m.offset) (seen.insert m.offset),
        (if greedy then sweep.reverse else sweep) ++ found⟩ := by
  cases rest : m.stop.rest with
  | nil => cases greedy <;> simp [run, singly_nil rest]
  | cons c cs =>
    -- The sweep only asks for later offsets, to which the present one makes no difference.
    have other : ∀ o, m.offset < o → (seen.insert m.offset).contains o = seen.contains o := by
      intro o later
      have apart : compare m.offset o ≠ .eq := by
        rw [ne_eq, Nat.compare_eq_eq]
        omega
      simp [Std.TreeSet.contains_insert, apart]
    have later := lt_offset_behind m c cs
    by_cases passes : test c = true
    · simp only [singly_cons rest, passes, if_true, List.foldl_cons, List.foldl_nil, explore, run,
        other _ later, ne_eq, reduceCtorEq, not_false_eq_true, and_self, Option.map_none]
      split
      · cases greedy <;> rfl
      · rw [run_congr _ none (m.behind c cs) _ fun o after => other o (Nat.lt_trans later after)]
        rfl
    · cases greedy <;> simp [run, singly_cons rest, passes]

theorem explore_finds (test : Char → Bool) (greedy : Bool) (text : List Char) {m : Match}
    (inside : Within text m) (x : Explored Match) (known : List Nat)
    (agrees : ∀ o, Explored.Knows x o ↔ o ∈ known)
    (settled : Settled (Within text) Match.offset remaining
      (allEnds remaining (singly test) greedy) known (remaining m)) :
    Finds id Explored.found Explored.Knows Match.offset known
      (allEnds remaining (singly test) greedy m) x (explore test greedy x m) := by
  have forward := singly_forward test text
  induction size : remaining m using Nat.strongRecOn generalizing m x known with
  | _ size ih =>
    subst size
    by_cases old : x.seen.contains m.offset = true
    · rw [explore, if_pos old]
      exact finds_nothing _ _ _ (settled m inside (Nat.le_refl _) ((agrees _).mp old)) agrees
    -- At a new offset a sweep of single steps finds what entering the offset and going on would.
    have unknown : m.offset ∉ known := fun member => old ((agrees _).mpr member)
    have found : explore test greedy x m =
        let sweep := run test x.seen.contains m.stop.rest none m []
        ⟨(sweep ++ [m]).foldl (fun seen m => seen.insert m.offset) x.seen,
          (if greedy then (sweep ++ [m]).reverse else sweep ++ [m]) ++ x.found⟩ := by
      rw [explore, if_neg old, run_append]
    apply enter_finds id Explored.found Explored.Knows forward (explore test greedy) inside unknown
      settled ⟨x.seen.insert m.offset, if greedy then x.found else m :: x.found⟩
    · intro o
      rw [Explored.knows_insert, agrees, List.mem_cons]
    · rfl
    · intro n member y known' agrees' settled'
      exact ih _ (forward.descends inside member) (forward.stays inside member) y known' agrees'
        settled' rfl
    · rw [explore_next, found]
      cases greedy <;> simp
    · intro o
      rw [explore_next, found]
      simp only [Explored.Knows, contains_foldl_insert, Std.TreeSet.contains_insert,
        Bool.or_eq_true, beq_iff_eq, Nat.compare_eq_eq, List.map_append, List.mem_append,
        List.map_cons, List.map_nil, List.mem_singleton, @eq_comm Nat o]
      grind

/-- The ends of any number of single characters from some matches are the thinned list of all of
them. -/
theorem runs_eq (test : Char → Bool) (greedy : Bool) (text : List Char) {ms : List Match}
    (inside : ∀ m ∈ ms, Within text m) :
    runs test greedy ms =
      thin Match.offset (ms.flatMap (allEnds remaining (singly test) greedy)) := by
  obtain ⟨limit, below⟩ := rank_bounded remaining ms
  have start : ∀ o, Explored.Knows (⟨∅, []⟩ : Explored Match) o ↔ o ∈ [] := by
    simp [Explored.Knows]
  have found := foldl_finds id Explored.found Explored.Knows (singly_forward test text) inside
    (fun m member y known agrees settled => explore_finds test greedy text (inside m member) y known
      agrees (settled.mono (below m member)))
    start (settled_nil _ limit)
  -- A single match is swept at once, with the same outcome as an exploration from it.
  have swept : runs test greedy ms =
      (ms.foldl (explore test greedy) ⟨∅, []⟩).found.reverse := by
    unfold runs
    split
    next m =>
      have nothing : (∅ : Std.TreeSet Nat).contains = fun _ => false := by
        funext o
        simp
      cases greedy <;> simp [explore, runOne, nothing]
    next => rfl
  rw [swept, found.1]
  simp [thin]

/-- An expression carries matches on as its outcomes say. -/
def Faithful (text : List Char) (r : Regex) : Prop :=
  ∀ ms, (∀ m ∈ ms, Within text m) → (ms.map Match.offset).Nodup →
    r.extend ms = thin Match.offset (ms.flatMap r.outcomes)

theorem nodup_map_thin (ms : List Match) : ((thin Match.offset ms).map Match.offset).Nodup :=
  nodup_map_fresh Match.offset [] ms

theorem within_of_mem_thin {text : List Char} {ms : List Match} {next : Match → List Match}
    (here : Local (Within text) Match.offset next) (inside : ∀ m ∈ ms, Within text m) :
    ∀ n ∈ thin Match.offset (ms.flatMap next), Within text n := by
  intro n member
  obtain ⟨m, listed, follows⟩ := List.mem_flatMap.mp ((thin_sublist _ _).subset member)
  exact here.stays (inside m listed) follows

/-- Lists may be thinned between two parts of a way. -/
theorem thin_flatMap_flatMap {text : List Char} {ms : List Match} {first second : Match → List Match}
    (here : Local (Within text) Match.offset first) (there : Local (Within text) Match.offset second)
    (inside : ∀ m ∈ ms, Within text m) :
    thin Match.offset ((thin Match.offset (ms.flatMap first)).flatMap second) =
      thin Match.offset (ms.flatMap fun m => (first m).flatMap second) := by
  have stays : ∀ n ∈ ms.flatMap first, Within text n := by
    intro n member
    obtain ⟨m, listed, follows⟩ := List.mem_flatMap.mp member
    exact here.stays (inside m listed) follows
  rw [thin_flatMap_thin, List.flatMap_assoc]
  exact fun e member f member' same => there.keys_eq (stays e member) (stays f member') same

theorem copies_nil {next : Nat → List Match → List Match} (i n : Nat) : copies next i n [] = [] := by
  cases n <;> rfl

theorem copies_eq {text : List Char} {r : Regex} (steady : r.steady = true)
    (faithful : Faithful text r) (i n : Nat) {ms : List Match} (inside : ∀ m ∈ ms, Within text m)
    (distinct : (ms.map Match.offset).Nodup) :
    copies (fun _ => r.extend) i n ms = thin Match.offset (ms.flatMap (exactly r.outcomes n)) := by
  induction n generalizing i ms with
  | zero =>
    have same : ms.flatMap (exactly r.outcomes 0) = ms := List.flatMap_singleton' ms
    rw [same, thin_of_nodup Match.offset distinct]
    cases ms <;> rfl
  | succ n ih =>
    have here := outcomes_local steady text
    have step : copies (fun _ => r.extend) i (n + 1) ms =
        copies (fun _ => r.extend) (i + 1) n (thin Match.offset (ms.flatMap r.outcomes)) := by
      cases ms with
      | nil => rw [copies_nil, List.flatMap_nil, thin, fresh, copies_nil]
      | cons m ms =>
        rw [← faithful _ inside distinct]
        rfl
    rw [step, ih _ (within_of_mem_thin here inside) (nodup_map_thin _),
      thin_flatMap_flatMap here (here.exactly n) inside]
    rfl

theorem outcomes_single {r : Regex} {test : Char → Bool} (single : r.single? = some test) :
    r.outcomes = singly test := by
  cases r <;> simp_all [single?]
  · subst single
    rfl
  · subst single
    rfl

theorem ends_local {r : Regex} (steady : r.steady = true) (text : List Char) (greedy : Bool)
    (limit : Option Nat) : Local (Within text) Match.offset
      fun m => ends r.outcomes greedy (limit.getD m.stop.rest.length) m where
  stays inside member := ((outcomes_local steady text).ends greedy _).stays inside member
  keys_eq := by
    intro m n inside inside' same
    rw [inside.eq_of_offset inside' same]
    exact ((outcomes_local steady text).ends greedy _).keys_eq inside inside' same

/-- Further rounds lead to all their ends. -/
theorem further_eq {text : List Char} {r : Regex} (steady : r.steady = true)
    (faithful : Faithful text r) {limit : Option Nat}
    (consumes : limit = none → r.nullable = false) (greedy : Bool) {ms : List Match}
    (inside : ∀ m ∈ ms, Within text m) :
    r.further r.extend limit greedy ms = thin Match.offset
      (ms.flatMap fun m => ends r.outcomes greedy (limit.getD m.stop.rest.length) m) := by
  have here := outcomes_local steady text
  -- From one match at a time, extending and listing all outcomes agree.
  have alone : ∀ m, Within text m → r.extend [m] = thin Match.offset (r.outcomes m) := by
    intro m ok
    rw [faithful [m] (by simpa using ok) (by simp), List.flatMap_singleton]
  unfold further
  split
  next test single =>
    rw [runs_eq test greedy text inside, outcomes_single single]
    rfl
  next test single _ =>
    rw [distinct_eq_thin, outcomes_single single]
    exact thin_flatMap_congr _ fun m _ => by rw [runOne_eq]
  next limit single =>
    rw [upTo_eq (here.thinned alone) greedy limit inside]
    exact thin_flatMap_congr _ fun m member =>
      thin_ends_congr here alone greedy limit (inside m member)
  next single =>
    have forward := (outcomes_forward steady (consumes rfl) text).thinned alone
    rw [many_eq forward greedy (·.stop.rest) (fun _ _ => Nat.le_refl _) inside]
    exact thin_flatMap_congr _ fun m member =>
      thin_ends_congr here alone greedy (remaining m) (inside m member)

theorem faithful_single {text : List Char} {r : Regex} {test : Char → Bool}
    (single : r.single? = some test) (steps : ∀ ms, r.extend ms = ms.filterMap (·.step? test)) :
    Faithful text r := by
  intro ms inside distinct
  have listed : ms.flatMap r.outcomes = ms.filterMap (·.step? test) := by
    rw [outcomes_single single, List.filterMap_eq_flatMap_toList]
    rfl
  rw [steps, listed, thin_of_nodup]
  rw [List.nodup_iff_pairwise_ne, List.pairwise_map] at distinct ⊢
  rw [List.pairwise_filterMap]
  refine distinct.imp_of_mem ?_
  intro m n member member' apart m' stepped n' stepped' same
  obtain ⟨c, _, reads⟩ := takes_single (Option.mem_toList.mpr stepped)
  obtain ⟨c', _, reads'⟩ := takes_single (Option.mem_toList.mpr stepped')
  have equal := (inside m member).eq_of_reads_singleton (inside n member') reads reads' same
  exact apart (by rw [Match.offset, Match.offset, equal])

/-- Matching computes the thinned list of outcomes. -/
theorem extend_eq {r : Regex} (steady : r.steady = true) (text : List Char) : Faithful text r := by
  induction r with
  | empty =>
    intro ms _ distinct
    have listed : ms.flatMap empty.outcomes = ms := List.flatMap_singleton' ms
    rw [listed, thin_of_nodup _ distinct, extend]
  | char c => exact faithful_single rfl fun _ => rfl
  | set s => exact faithful_single rfl fun _ => rfl
  | assert a =>
    intro ms inside distinct
    have listed : ms.flatMap (assert a).outcomes = ms.filter (a.holds ·.stop) := by
      clear inside distinct
      induction ms with
      | nil => rfl
      | cons m ms ih =>
        rw [List.flatMap_cons, ih, outcomes, List.filter_cons]
        split <;> rfl
    rw [listed, thin_of_nodup _ (distinct.sublist (List.filter_sublist.map _)), extend]
  | seq r s ihr ihs =>
    simp only [Regex.steady, Bool.and_eq_true] at steady
    intro ms inside distinct
    have here := outcomes_local steady.1 text
    have there := outcomes_local steady.2 text
    have faithful := ihs steady.2
    have nothing : s.extend [] = [] := faithful [] (by simp) (by simp)
    -- Where the first part finds nothing the second one is not tried, and would find nothing.
    have unguarded : (seq r s).extend ms = s.extend (r.extend ms) := by
      rw [extend]
      split
      next empty => rw [empty, nothing]
      next => rfl
    rw [unguarded, ihr steady.1 ms inside distinct,
      faithful _ (within_of_mem_thin here inside) (nodup_map_thin _),
      thin_flatMap_flatMap here there inside]
    rfl
  | alt r s ihr ihs =>
    simp only [Regex.steady, Bool.and_eq_true] at steady
    intro ms inside _
    rw [extend, distinct_eq_thin]
    apply thin_flatMap_congr
    intro m member
    -- Each match is taken through both branches on its own, through the first one before the other.
    have ok : ∀ n ∈ [m], Within text n := by simpa using inside m member
    rw [ihr steady.1 [m] ok (by simp), ihs steady.2 [m] ok (by simp), List.flatMap_singleton,
      List.flatMap_singleton, outcomes]
    exact thin_append_congr _ (thin_thin _ _) (thin_thin _ _)
  | group i r ih =>
    intro ms inside distinct
    have entered : ∀ m ∈ ms.map (·.enter i), Within text m := by
      intro m member
      obtain ⟨n, listed, rfl⟩ := List.mem_map.mp member
      exact inside n listed
    have left : ms.flatMap (group i r).outcomes =
        ((ms.map (·.enter i)).flatMap r.outcomes).map (·.leave i) := by
      rw [List.map_flatMap, List.flatMap_map]
      rfl
    rw [extend, ih steady _ entered (by rw [List.map_map]; exact distinct), left, thin_map]
    rfl
  | rep r min max greedy ih =>
    simp only [Regex.steady, Bool.and_eq_true, Bool.or_eq_true, Bool.not_eq_true'] at steady
    intro ms inside distinct
    have here := outcomes_local steady.1 text
    have faithful := ih steady.1
    -- Steady repetitions without a bound read something in each round, so their rounds end.
    have consumes : max.map (· - min) = none → r.nullable = false := by
      rintro unbounded
      cases max <;> simp_all
    have guard : (max.isNone && r.nullable) = false := by
      cases max <;> simp_all
    rw [extend, if_neg (by simp [guard]), copies_eq steady.1 faithful 0 min inside distinct,
      further_eq steady.1 faithful consumes greedy (within_of_mem_thin (here.exactly min) inside),
      thin_flatMap_flatMap (here.exactly min) (ends_local steady.1 text greedy _) inside]
    rfl

end Regex

end Ripple
