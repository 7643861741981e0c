import Mathlib.Data.List.Basic
import Ripple.Proofs.Regex.Thinning

/-!
What the exploration of rounds finds. The ends of all rounds from a state form a tree, and listing
it in order of preference gives a list with repetitions. An exploration that enters each place only
once finds exactly this list, thinned: when it comes to a place that it has entered before, all that
follows has been found before. This needs that rounds go forward, so that no place is entered again
while what follows it is still being explored.
-/

namespace Ripple.Rounds

variable {σ ν κ S : Type}

/-- The ends of exactly the given number of rounds, the preferred one first. -/
def exactly (next : ν → List ν) : Nat → ν → List ν
  | 0, e => [e]
  | n + 1, e => (next e).flatMap (exactly next n)

/-- The ends of at most the given number of rounds, the preferred one first. -/
def ends (next : ν → List ν) (greedy : Bool) : Nat → ν → List ν
  | 0, e => [e]
  | n + 1, e =>
    if greedy then (next e).flatMap (ends next greedy n) ++ [e]
    else e :: (next e).flatMap (ends next greedy n)

/-- One state leads to another by the given number of steps. -/
def Iterated (step : ν → ν → Prop) : Nat → ν → ν → Prop
  | 0, e, f => f = e
  | n + 1, e, f => ∃ g, step e g ∧ Iterated step n g f

theorem Iterated.add {step : ν → ν → Prop} {m n : Nat} {e f g : ν} (first : Iterated step m e f)
    (second : Iterated step n f g) : Iterated step (m + n) e g := by
  induction m generalizing e with
  | zero =>
    cases first
    simpa using second
  | succ m ih =>
    obtain ⟨h, here, rest⟩ := first
    rw [Nat.succ_add]
    exact ⟨h, here, ih rest⟩

theorem Iterated.keeps {step : ν → ν → Prop} {P : ν → Prop} {n : Nat} {e f : ν}
    (iterated : Iterated step n e f) (kept : ∀ e f, P e → step e f → P f) (here : P e) : P f := by
  induction n generalizing e with
  | zero =>
    cases iterated
    exact here
  | succ n ih =>
    obtain ⟨g, first, rest⟩ := iterated
    exact ih rest (kept e g here first)

theorem Iterated.map {step : ν → ν → Prop} {other : σ → σ → Prop} (g : ν → σ)
    (carries : ∀ e f, step e f → other (g e) (g f)) {n : Nat} {e f : ν}
    (iterated : Iterated step n e f) : Iterated other n (g e) (g f) := by
  induction n generalizing e with
  | zero =>
    cases iterated
    rfl
  | succ n ih =>
    obtain ⟨h, here, rest⟩ := iterated
    exact ⟨g h, carries e h here, ih rest⟩

theorem Iterated.lift {step : ν → ν → Prop} {other : σ → σ → Prop} {g : ν → σ}
    (lifts : ∀ e y, other (g e) y → ∃ f, step e f ∧ g f = y) {n : Nat} {e : ν} {y : σ}
    (iterated : Iterated other n (g e) y) : ∃ f, Iterated step n e f ∧ g f = y := by
  induction n generalizing e with
  | zero => exact ⟨e, rfl, iterated.symm⟩
  | succ n ih =>
    obtain ⟨x, here, rest⟩ := iterated
    obtain ⟨h, there, rfl⟩ := lifts e x here
    obtain ⟨f, more, equal⟩ := ih rest
    exact ⟨f, ⟨h, there, more⟩, equal⟩

theorem Iterated.split {step : ν → ν → Prop} {m n : Nat} {e g : ν}
    (iterated : Iterated step (m + n) e g) : ∃ f, Iterated step m e f ∧ Iterated step n f g := by
  induction m generalizing e with
  | zero => exact ⟨e, rfl, by simpa using iterated⟩
  | succ m ih =>
    rw [Nat.succ_add] at iterated
    obtain ⟨h, here, rest⟩ := iterated
    obtain ⟨f, first, second⟩ := ih rest
    exact ⟨f, ⟨h, here, first⟩, second⟩

/-- Steps that lower a rank are no more than the rank. -/
theorem Iterated.le_rank {step : ν → ν → Prop} {rank : ν → Nat}
    (descends : ∀ e f, step e f → rank f < rank e) {n : Nat} {e f : ν}
    (iterated : Iterated step n e f) : n + rank f ≤ rank e := by
  induction n generalizing e with
  | zero =>
    cases iterated
    omega
  | succ n ih =>
    obtain ⟨h, here, rest⟩ := iterated
    have := descends e h here
    have := ih rest
    omega

theorem mem_exactly_iff {next : ν → List ν} {n : Nat} {e f : ν} :
    f ∈ exactly next n e ↔ Iterated (fun e f => f ∈ next e) n e f := by
  induction n generalizing e with
  | zero => simp [exactly, Iterated]
  | succ n ih => simp [exactly, Iterated, List.mem_flatMap, ih]

theorem mem_ends_succ_iff {next : ν → List ν} {greedy : Bool} {n : Nat} {e f : ν} :
    f ∈ ends next greedy (n + 1) e ↔ f = e ∨ ∃ g ∈ next e, f ∈ ends next greedy n g := by
  cases greedy <;> simp [ends, or_comm]

theorem mem_ends_iff {next : ν → List ν} {greedy : Bool} {n : Nat} {e f : ν} :
    f ∈ ends next greedy n e ↔ ∃ k ≤ n, Iterated (fun e f => f ∈ next e) k e f := by
  induction n generalizing e with
  | zero => simp [ends, Iterated]
  | succ n ih =>
    rw [mem_ends_succ_iff]
    constructor
    · rintro (rfl | ⟨g, member, rest⟩)
      · exact ⟨0, Nat.zero_le _, rfl⟩
      · obtain ⟨k, bound, iterated⟩ := ih.mp rest
        exact ⟨k + 1, by omega, g, member, iterated⟩
    · rintro ⟨k, bound, iterated⟩
      cases k with
      | zero => exact .inl iterated
      | succ k =>
        obtain ⟨g, member, rest⟩ := iterated
        exact .inr ⟨g, member, ih.mpr ⟨k, by omega, rest⟩⟩

theorem self_mem_ends (next : ν → List ν) (greedy : Bool) (n : Nat) (e : ν) :
    e ∈ ends next greedy n e :=
  mem_ends_iff.mpr ⟨0, Nat.zero_le _, rfl⟩

theorem reverse_ends (next : ν → List ν) (n : Nat) (e : ν) :
    (ends next true n e).reverse = ends (fun e => (next e).reverse) false n e := by
  induction n generalizing e with
  | zero => rfl
  | succ n ih => simp [ends, List.reverse_flatMap, Function.comp_def, ih]

/-- What follows a valid state is valid, and its keys depend on the key of the state alone. -/
structure Local (valid : ν → Prop) (key : ν → κ) (next : ν → List ν) : Prop where
  stays : ∀ {e f}, valid e → f ∈ next e → valid f
  keys_eq : ∀ {e f}, valid e → valid f → key e = key f → ∀ x ∈ next e, key x ∈ (next f).map key

/-- Rounds go forward: they lower a rank, which depends on the key of a state alone. -/
structure Forward (valid : ν → Prop) (key : ν → κ) (rank : ν → Nat) (next : ν → List ν) : Prop
    extends Local valid key next where
  descends : ∀ {e f}, valid e → f ∈ next e → rank f < rank e
  rank_eq : ∀ {e f}, valid e → valid f → key e = key f → rank e = rank f

section Locality

variable {valid : ν → Prop} {key : ν → κ} {next : ν → List ν}

theorem Local.iterated (here : Local valid key next) {n : Nat} {e f g : ν} (ok : valid e)
    (ok' : valid f) (same : key e = key f) (iterated : Iterated (fun e f => f ∈ next e) n e g) :
    valid g ∧ ∃ h, Iterated (fun e f => f ∈ next e) n f h ∧ key h = key g := by
  induction n generalizing e f with
  | zero =>
    cases iterated
    exact ⟨ok, f, rfl, same.symm⟩
  | succ n ih =>
    obtain ⟨x, first, rest⟩ := iterated
    obtain ⟨y, second, equal⟩ := List.mem_map.mp (here.keys_eq ok ok' same x first)
    obtain ⟨fine, h, other, last⟩ :=
      ih (here.stays ok first) (here.stays ok' second) equal.symm rest
    exact ⟨fine, h, ⟨y, second, other⟩, last⟩

theorem Local.exactly (here : Local valid key next) (n : Nat) :
    Local valid key (exactly next n) where
  stays ok member := (here.iterated ok ok rfl (mem_exactly_iff.mp member)).1
  keys_eq := by
    intro e f ok ok' same x member
    obtain ⟨_, y, other, equal⟩ := here.iterated ok ok' same (mem_exactly_iff.mp member)
    exact List.mem_map.mpr ⟨y, mem_exactly_iff.mpr other, equal⟩

theorem Local.ends (here : Local valid key next) (greedy : Bool) (n : Nat) :
    Local valid key (ends next greedy n) where
  stays := by
    intro e f ok member
    obtain ⟨k, _, iterated⟩ := mem_ends_iff.mp member
    exact (here.iterated ok ok rfl iterated).1
  keys_eq := by
    intro e f ok ok' same x member
    obtain ⟨k, bound, iterated⟩ := mem_ends_iff.mp member
    obtain ⟨_, y, other, equal⟩ := here.iterated ok ok' same iterated
    exact List.mem_map.mpr ⟨y, mem_ends_iff.mpr ⟨k, bound, other⟩, equal⟩

variable [DecidableEq κ]

theorem Local.thinned (here : Local valid key next) {other : ν → List ν}
    (same : ∀ e, valid e → other e = thin key (next e)) : Local valid key other where
  stays := by
    intro e f ok member
    rw [same e ok] at member
    exact here.stays ok ((thin_sublist key _).subset member)
  keys_eq := by
    intro e f ok ok' equal x member
    rw [same e ok] at member
    rw [same f ok', mem_map_thin_iff]
    exact here.keys_eq ok ok' equal x ((thin_sublist key _).subset member)

theorem Forward.thinned {rank : ν → Nat} (forward : Forward valid key rank next)
    {other : ν → List ν} (same : ∀ e, valid e → other e = thin key (next e)) :
    Forward valid key rank other where
  toLocal := forward.toLocal.thinned same
  descends := by
    intro e f ok member
    rw [same e ok] at member
    exact forward.descends ok ((thin_sublist key _).subset member)
  rank_eq := forward.rank_eq

/-- Thinning after each round changes nothing once the ends are thinned. -/
theorem thin_ends_congr (here : Local valid key next) {other : ν → List ν}
    (same : ∀ e, valid e → other e = thin key (next e)) (greedy : Bool) (n : Nat) {e : ν}
    (ok : valid e) :
    thin key (Rounds.ends other greedy n e) = thin key (Rounds.ends next greedy n e) := by
  induction n generalizing e with
  | zero => rfl
  | succ n ih =>
    have below : thin key ((other e).flatMap (Rounds.ends other greedy n)) =
        thin key ((next e).flatMap (Rounds.ends next greedy n)) := by
      have stays : ∀ f ∈ next e, valid f := fun f member => here.stays ok member
      rw [same e ok, thin_flatMap_congr key fun f member =>
        ih (stays f ((thin_sublist key _).subset member)), thin_flatMap_thin]
      exact fun f member g member' equal =>
        (here.ends greedy n).keys_eq (stays f member) (stays g member') equal
    cases greedy with
    | false => exact thin_append_congr key (show thin key [e] = thin key [e] from rfl) below
    | true => exact thin_append_congr key below rfl

end Locality

section Everything

variable {valid : ν → Prop} {key : ν → κ} {rank : ν → Nat} {next : ν → List ν}

/-- Where no rank is left nothing follows. -/
theorem Forward.next_eq_nil (forward : Forward valid key rank next) {e : ν} (ok : valid e)
    (lowest : rank e = 0) : next e = [] := by
  rw [List.eq_nil_iff_forall_not_mem]
  intro f member
  have := forward.descends ok member
  omega

theorem ends_stable (forward : Forward valid key rank next) (greedy : Bool) {m n : Nat} {e : ν}
    (ok : valid e) (first : rank e ≤ m) (second : rank e ≤ n) :
    ends next greedy m e = ends next greedy n e := by
  induction m generalizing n e with
  | zero =>
    have stop := forward.next_eq_nil ok (Nat.le_zero.mp first)
    cases n with
    | zero => rfl
    | succ n => cases greedy <;> simp [ends, stop]
  | succ m ih =>
    cases n with
    | zero =>
      have stop := forward.next_eq_nil ok (Nat.le_zero.mp second)
      cases greedy <;> simp [ends, stop]
    | succ n =>
      -- What follows has a lower rank, so one round less is still enough for it.
      have below : (next e).flatMap (ends next greedy m) = (next e).flatMap (ends next greedy n) := by
        apply List.flatMap_congr
        intro f member
        have lower := forward.descends ok member
        exact ih (forward.stays ok member) (by omega) (by omega)
      simp only [ends, below]

/-- The ends of any number of rounds from a state. -/
def allEnds (rank : ν → Nat) (next : ν → List ν) (greedy : Bool) (e : ν) : List ν :=
  ends next greedy (rank e) e

theorem allEnds_eq (forward : Forward valid key rank next) (greedy : Bool) {e : ν} (ok : valid e) :
    allEnds rank next greedy e =
      if greedy then (next e).flatMap (allEnds rank next greedy) ++ [e]
      else e :: (next e).flatMap (allEnds rank next greedy) := by
  have below : (next e).flatMap (ends next greedy (rank e)) =
      (next e).flatMap (allEnds rank next greedy) := by
    apply List.flatMap_congr
    intro f member
    have lower := forward.descends ok member
    exact ends_stable forward greedy (forward.stays ok member) (by omega) (Nat.le_refl _)
  rw [allEnds, ends_stable forward greedy ok (Nat.le_refl _) (Nat.le_succ _), ends, below]

theorem mem_allEnds_iff (forward : Forward valid key rank next) {greedy : Bool} {e f : ν}
    (ok : valid e) :
    f ∈ allEnds rank next greedy e ↔ ∃ n, Iterated (fun e f => f ∈ next e) n e f := by
  rw [allEnds, mem_ends_iff]
  constructor
  · rintro ⟨n, _, iterated⟩
    exact ⟨n, iterated⟩
  · rintro ⟨n, iterated⟩
    refine ⟨n, ?_, iterated⟩
    clear greedy
    induction n generalizing e with
    | zero => exact Nat.zero_le _
    | succ n ih =>
      obtain ⟨g, member, rest⟩ := iterated
      have lower := forward.descends ok member
      have := ih (forward.stays ok member) rest
      omega

theorem valid_of_mem_allEnds (forward : Forward valid key rank next) {greedy : Bool} {e f : ν}
    (ok : valid e) (member : f ∈ allEnds rank next greedy e) : valid f :=
  (forward.toLocal.ends greedy _).stays ok member

theorem rank_le_of_mem_allEnds (forward : Forward valid key rank next) {greedy : Bool} {e f : ν}
    (ok : valid e) (member : f ∈ allEnds rank next greedy e) : rank f ≤ rank e := by
  obtain ⟨n, iterated⟩ := (mem_allEnds_iff forward ok).mp member
  clear member
  induction n generalizing e with
  | zero =>
    cases iterated
    exact Nat.le_refl _
  | succ n ih =>
    obtain ⟨g, here, rest⟩ := iterated
    have lower := forward.descends ok here
    have := ih (forward.stays ok here) rest
    omega

theorem mem_allEnds_trans (forward : Forward valid key rank next) {greedy : Bool} {e f g : ν}
    (ok : valid e) (first : f ∈ allEnds rank next greedy e)
    (second : g ∈ allEnds rank next greedy f) : g ∈ allEnds rank next greedy e := by
  have between := valid_of_mem_allEnds forward ok first
  obtain ⟨m, here⟩ := (mem_allEnds_iff forward ok).mp first
  obtain ⟨n, there⟩ := (mem_allEnds_iff forward between).mp second
  exact (mem_allEnds_iff forward ok).mpr ⟨m + n, here.add there⟩

/-- The keys of all that follows a state depend on its key alone. -/
theorem key_mem_allEnds (forward : Forward valid key rank next) {greedy : Bool} {e f g : ν}
    (ok : valid e) (ok' : valid f) (same : key e = key f)
    (member : g ∈ allEnds rank next greedy e) : key g ∈ (allEnds rank next greedy f).map key := by
  rw [allEnds, ← forward.rank_eq ok ok' same]
  exact (forward.toLocal.ends greedy _).keys_eq ok ok' same g member

/-- Up to a rank, all that follows a known state is known. -/
def Settled (valid : ν → Prop) (key : ν → κ) (rank : ν → Nat) (all : ν → List ν) (known : List κ)
    (limit : Nat) : Prop :=
  ∀ f, valid f → rank f ≤ limit → key f ∈ known → ∀ g ∈ all f, key g ∈ known

theorem settled_nil (all : ν → List ν) (limit : Nat) : Settled valid key rank all [] limit :=
  fun _ _ _ member => absurd member List.not_mem_nil

theorem Settled.mono {all : ν → List ν} {known : List κ} {low high : Nat}
    (settled : Settled valid key rank all known high) (below : low ≤ high) :
    Settled valid key rank all known low :=
  fun f ok bound member => settled f ok (Nat.le_trans bound below) member

/-- A state may be marked as known before what follows it: nothing of a lower rank has its key. -/
theorem Settled.enter (forward : Forward valid key rank next) {all : ν → List ν} {known : List κ}
    {e : ν} {limit : Nat} (ok : valid e) (settled : Settled valid key rank all known (rank e))
    (below : limit < rank e) : Settled valid key rank all (key e :: known) limit := by
  intro f ok' bound member g follows
  rcases List.mem_cons.mp member with same | member
  · have := forward.rank_eq ok' ok same
    omega
  · exact List.mem_cons_of_mem _ (settled f ok' (by omega) member g follows)

theorem Settled.visit (forward : Forward valid key rank next) {greedy : Bool} {known : List κ}
    {e : ν} {limit : Nat} (ok : valid e)
    (settled : Settled valid key rank (allEnds rank next greedy) known limit) :
    Settled valid key rank (allEnds rank next greedy)
      ((allEnds rank next greedy e).map key ++ known) limit := by
  intro f ok' bound member g follows
  rcases List.mem_append.mp member with member | member
  · obtain ⟨h, here, same⟩ := List.mem_map.mp member
    have between := valid_of_mem_allEnds forward ok here
    obtain ⟨x, there, equal⟩ :=
      List.mem_map.mp (key_mem_allEnds forward ok' between same.symm follows)
    rw [← equal]
    exact List.mem_append_left _ (List.mem_map_of_mem (mem_allEnds_trans forward ok here there))
  · exact List.mem_append_right _ (settled f ok' bound member g follows)

variable [DecidableEq κ] (emit : ν → σ) (found : S → List σ) (knows : S → κ → Prop)

/-- A visit of a state finds what is new of a list and gets to know the keys of the list. -/
def Finds (key : ν → κ) (known : List κ) (new : List ν) (before after : S) : Prop :=
  found after = ((fresh key known new).map emit).reverse ++ found before ∧
    ∀ k, knows after k ↔ k ∈ new.map key ++ known

theorem finds_nothing {key : ν → κ} {known : List κ} {new : List ν} {s : S}
    (old : ∀ e ∈ new, key e ∈ known) (agrees : ∀ k, knows s k ↔ k ∈ known) :
    Finds emit found knows key known new s s := by
  refine ⟨by rw [fresh_eq_nil key old]; rfl, fun k => ?_⟩
  rw [agrees, List.mem_append]
  constructor
  · exact .inr
  · rintro (member | member)
    · obtain ⟨e, listed, rfl⟩ := List.mem_map.mp member
      exact old e listed
    · exact member

/-- If each visit finds all that follows its state, then visits one after another find all that
follows their states. -/
theorem foldl_finds (forward : Forward valid key rank next) {greedy : Bool} {limit : Nat}
    {visit : S → ν → S} {es : List ν} (ok : ∀ e ∈ es, valid e)
    (each : ∀ e ∈ es, ∀ s known, (∀ k, knows s k ↔ k ∈ known) →
      Settled valid key rank (allEnds rank next greedy) known limit →
      Finds emit found knows key known (allEnds rank next greedy e) s (visit s e))
    {s : S} {known : List κ} (agrees : ∀ k, knows s k ↔ k ∈ known)
    (settled : Settled valid key rank (allEnds rank next greedy) known limit) :
    Finds emit found knows key known (es.flatMap (allEnds rank next greedy)) s
      (es.foldl visit s) := by
  induction es generalizing s known with
  | nil => exact ⟨rfl, agrees⟩
  | cons e es ih =>
    simp only [List.mem_cons, forall_eq_or_imp] at ok each
    -- What the first visit finds is known to the others, and is still settled for them.
    obtain ⟨here, knowsHere⟩ := each.1 s known agrees settled
    obtain ⟨there, knowsThere⟩ := ih ok.2 each.2 knowsHere (settled.visit forward ok.1)
    constructor
    · rw [List.foldl_cons, there, here, List.flatMap_cons, fresh_append, List.map_append,
        List.reverse_append, List.append_assoc]
    · intro k
      simp only [List.foldl_cons, knowsThere, List.flatMap_cons, List.map_append, List.mem_append]
      grind

omit [DecidableEq κ] in
/-- Nothing that follows a state has its key. -/
theorem key_ne_of_follows (forward : Forward valid key rank next) {greedy : Bool} {e f : ν}
    (ok : valid e) (member : f ∈ (next e).flatMap (allEnds rank next greedy)) : key f ≠ key e := by
  intro equal
  obtain ⟨g, child, below⟩ := List.mem_flatMap.mp member
  have stays := forward.stays ok child
  have lower := forward.descends ok child
  have lowest := rank_le_of_mem_allEnds forward stays below
  have := forward.rank_eq (valid_of_mem_allEnds forward stays below) ok equal
  omega

/-- What is new of the ends of a new state: the state itself at its turn, and what is new of the
rest. -/
theorem fresh_allEnds (forward : Forward valid key rank next) {greedy : Bool} {known : List κ}
    {e : ν} (ok : valid e) (new : key e ∉ known) :
    fresh key known (allEnds rank next greedy e) =
      if greedy then
        fresh key (key e :: known) ((next e).flatMap (allEnds rank next greedy)) ++ [e]
      else e :: fresh key (key e :: known) ((next e).flatMap (allEnds rank next greedy)) := by
  rw [allEnds_eq forward greedy ok]
  cases greedy with
  | false => simp only [Bool.false_eq_true, if_false, fresh, new]
  | true =>
    -- A state never leads back to its own key, so its turn at the end is not taken from it.
    have apart : key e ∉ ((next e).flatMap (allEnds rank next true)).map key := by
      intro member
      obtain ⟨f, below, equal⟩ := List.mem_map.mp member
      exact key_ne_of_follows forward ok below equal
    have alone : fresh key (((next e).flatMap (allEnds rank next true)).map key ++ known) [e] = [e] := by
      simp only [fresh, List.mem_append, apart, new, or_self, if_false]
    have unaffected : fresh key (key e :: known) ((next e).flatMap (allEnds rank next true)) =
        fresh key known ((next e).flatMap (allEnds rank next true)) := by
      rw [fresh_eq_filter, fresh_eq_filter key known]
      apply List.filter_congr
      intro f member
      have := key_ne_of_follows forward ok ((thin_sublist key _).subset member)
      simp [this]
    simp only [if_true, fresh_append, alone, unaffected]

/-- Entering a state, visiting what follows it and listing it at its turn finds all its ends. -/
theorem enter_finds (forward : Forward valid key rank next) {greedy : Bool} (visit : S → ν → S)
    {e : ν} (ok : valid e) {known : List κ} (new : key e ∉ known)
    (settled : Settled valid key rank (allEnds rank next greedy) known (rank e))
    (entered : S) {before after : S} (agrees : ∀ k, knows entered k ↔ k ∈ key e :: known)
    (start : found entered = if greedy then found before else emit e :: found before)
    (each : ∀ f ∈ next e, ∀ s known, (∀ k, knows s k ↔ k ∈ known) →
      Settled valid key rank (allEnds rank next greedy) known (rank f) →
      Finds emit found knows key known (allEnds rank next greedy f) s (visit s f))
    (last : found after = if greedy then emit e :: found ((next e).foldl visit entered)
      else found ((next e).foldl visit entered))
    (same : ∀ k, knows after k ↔ knows ((next e).foldl visit entered) k) :
    Finds emit found knows key known (allEnds rank next greedy e) before after := by
  -- What follows is found as if this element were known, since no way leads back to it.
  have children : Finds emit found knows key (key e :: known)
      ((next e).flatMap (allEnds rank next greedy)) entered ((next e).foldl visit entered) := by
    by_cases zero : rank e = 0
    · have none : next e = [] := List.eq_nil_iff_forall_not_mem.mpr fun f member => by
        have := forward.descends ok member
        omega
      simp only [none, List.foldl_nil, List.flatMap_nil]
      exact ⟨rfl, agrees⟩
    · apply foldl_finds emit found knows forward (fun f member => forward.stays ok member) ?_
        agrees (settled.enter forward ok (Nat.sub_one_lt zero))
      intro f member s known' agrees' settled'
      have lower := forward.descends ok member
      exact each f member s known' agrees' (settled'.mono (by omega))
  constructor
  · rw [last, children.1, start, fresh_allEnds forward ok new]
    cases greedy <;> simp
  · intro k
    rw [same, children.2, allEnds_eq forward greedy ok]
    cases greedy <;> simp only [if_true, Bool.false_eq_true, if_false, List.map_append,
      List.map_cons, List.map_nil, List.mem_append, List.mem_cons] <;> grind

end Everything

section Explored

variable {valid : σ → Prop} {offset rank : σ → Nat} {next : σ → List σ}

/-- The offset has been explored. -/
def Explored.Knows (x : Explored σ) (o : Nat) : Prop := x.seen.contains o = true

theorem Explored.knows_insert (x : Explored σ) (found : List σ) (o p : Nat) :
    Explored.Knows (⟨x.seen.insert o, found⟩ : Explored σ) p ↔ p = o ∨ Explored.Knows x p := by
  simp only [Explored.Knows, Std.TreeSet.contains_insert, Bool.or_eq_true, beq_iff_eq,
    Nat.compare_eq_eq, @eq_comm Nat p]

theorem further_nil (offset : σ → Nat) (next : σ → List σ) (greedy : Bool) (e : σ)
    (x : Explored σ) :
    further offset next greedy [] e x =
      if x.seen.contains (offset e) then x
      else
        let entered : Explored σ :=
          ⟨x.seen.insert (offset e), if greedy then x.found else e :: x.found⟩
        if greedy then { entered with found := e :: entered.found } else entered := rfl

theorem further_cons (offset : σ → Nat) (next : σ → List σ) (greedy : Bool) (c : Char)
    (bound : List Char) (e : σ) (x : Explored σ) :
    further offset next greedy (c :: bound) e x =
      if x.seen.contains (offset e) then x
      else
        let entered : Explored σ :=
          ⟨x.seen.insert (offset e), if greedy then x.found else e :: x.found⟩
        let more := (next e).foldl (fun x f => further offset next greedy bound f x) entered
        if greedy then { more with found := e :: more.found } else more := rfl

theorem further_finds (forward : Forward valid offset rank next) (greedy : Bool)
    (bound : List Char) {e : σ} (ok : valid e) (enough : rank e ≤ bound.length) (x : Explored σ)
    (known : List Nat) (agrees : ∀ o, Explored.Knows x o ↔ o ∈ known)
    (settled : Settled valid offset rank (allEnds rank next greedy) known (rank e)) :
    Finds id Explored.found Explored.Knows offset known (allEnds rank next greedy e) x
      (further offset next greedy bound e x) := by
  induction bound generalizing e x known with
  | nil =>
    have none : next e = [] := List.eq_nil_iff_forall_not_mem.mpr fun f member => by
      have := forward.descends ok member
      simp only [List.length_nil] at enough
      omega
    rw [further_nil]
    split
    next old => exact finds_nothing _ _ _ (settled e ok (Nat.le_refl _) ((agrees _).mp old)) agrees
    next new =>
      have unknown : offset e ∉ known := fun member => new ((agrees _).mpr member)
      -- Nothing follows, so it does not matter how it would be visited.
      apply enter_finds id Explored.found Explored.Knows forward (fun x _ => x) ok unknown settled
        ⟨x.seen.insert (offset e), if greedy then x.found else e :: x.found⟩
      · intro o
        rw [Explored.knows_insert, agrees, List.mem_cons]
      · rfl
      · simp [none]
      · cases greedy <;> simp [none]
      · intro o
        cases greedy <;> simp [none, Explored.Knows]
  | cons c bound ih =>
    rw [further_cons]
    split
    next old => exact finds_nothing _ _ _ (settled e ok (Nat.le_refl _) ((agrees _).mp old)) agrees
    next new =>
      have unknown : offset e ∉ known := fun member => new ((agrees _).mpr member)
      apply enter_finds id Explored.found Explored.Knows forward
        (fun x f => further offset next greedy bound f x) ok unknown settled
        ⟨x.seen.insert (offset e), if greedy then x.found else e :: x.found⟩
      · intro o
        rw [Explored.knows_insert, agrees, List.mem_cons]
      · rfl
      · intro f member y known' agrees' settled'
        have lower := forward.descends ok member
        simp only [List.length_cons] at enough
        exact ih (forward.stays ok member) (by omega) y known' agrees' settled'
      · cases greedy <;> rfl
      · intro o
        cases greedy <;> rfl

theorem rank_bounded (rank : σ → Nat) (es : List σ) : ∃ limit, ∀ e ∈ es, rank e ≤ limit := by
  induction es with
  | nil => exact ⟨0, by simp⟩
  | cons e es ih =>
    obtain ⟨limit, below⟩ := ih
    refine ⟨max (rank e) limit, fun f member => ?_⟩
    rcases List.mem_cons.mp member with rfl | member
    · exact Nat.le_max_left _ _
    · exact Nat.le_trans (below f member) (Nat.le_max_right _ _)

/-- The ends of any number of rounds from some states are the thinned list of all of them. -/
theorem many_eq (forward : Forward valid offset rank next) (greedy : Bool) (bound : σ → List Char)
    (enough : ∀ e, valid e → rank e ≤ (bound e).length) {es : List σ} (ok : ∀ e ∈ es, valid e) :
    many offset next greedy bound es = thin offset (es.flatMap (allEnds rank next greedy)) := by
  obtain ⟨limit, below⟩ := rank_bounded rank es
  have start : ∀ o, Explored.Knows (⟨∅, []⟩ : Explored σ) o ↔ o ∈ [] := by simp [Explored.Knows]
  have found := foldl_finds id Explored.found Explored.Knows forward ok
    (fun e member y known agrees settled => further_finds forward greedy (bound e) (ok e member)
      (enough e (ok e member)) y known agrees (settled.mono (below e member)))
    start (settled_nil _ limit)
  rw [many, found.1]
  simp [thin]

end Explored

section Counted

variable {valid : σ → Prop} {offset : σ → Nat} {next : σ → List σ}

/-- The number of rounds left and the offset have been explored. -/
def Counted.Knows (x : Counted σ) (k : Nat × Nat) : Prop := x.seen.contains k = true

/-- One round of a state that has a number of rounds left. -/
def levels (next : σ → List σ) : Nat × σ → List (Nat × σ)
  | (0, _) => []
  | (n + 1, e) => (next e).map fun f => (n, f)

theorem levels_forward (here : Local valid offset next) :
    Forward (fun p : Nat × σ => valid p.2) (fun p => (p.1, offset p.2)) Prod.fst (levels next) where
  stays := by
    rintro ⟨_ | n, e⟩ ⟨m, f⟩ ok member
    · simp [levels] at member
    · simp only [levels, List.mem_map, Prod.mk.injEq] at member
      obtain ⟨g, follows, rfl, rfl⟩ := member
      exact here.stays ok follows
  descends := by
    rintro ⟨_ | n, e⟩ ⟨m, f⟩ _ member
    · simp [levels] at member
    · simp only [levels, List.mem_map, Prod.mk.injEq] at member
      obtain ⟨g, _, rfl, _⟩ := member
      exact Nat.lt_succ_self _
  rank_eq := by
    rintro ⟨m, e⟩ ⟨n, f⟩ _ _ same
    exact (Prod.mk.inj same).1
  keys_eq := by
    rintro ⟨m, e⟩ ⟨n, f⟩ ok ok' same x member
    obtain ⟨rfl, same⟩ := Prod.mk.inj same
    -- States that agree in their level and offset have followers that do.
    cases m with
    | zero => simp [levels] at member
    | succ m =>
      simp only [levels, List.mem_map] at member ⊢
      obtain ⟨g, follows, rfl⟩ := member
      obtain ⟨h, other, equal⟩ := List.mem_map.mp (here.keys_eq ok ok' same g follows)
      exact ⟨(m, h), ⟨h, other, rfl⟩, by rw [equal]⟩

theorem map_allEnds_levels (next : σ → List σ) (greedy : Bool) (n : Nat) (e : σ) :
    (allEnds Prod.fst (levels next) greedy (n, e)).map Prod.snd = ends next greedy n e := by
  simp only [allEnds]
  induction n generalizing e with
  | zero => rfl
  | succ n ih =>
    have below : ((levels next (n + 1, e)).flatMap (ends (levels next) greedy n)).map Prod.snd =
        (next e).flatMap (ends next greedy n) := by
      simp only [levels, List.map_flatMap, List.flatMap_map, ih]
    cases greedy <;> simp [ends, below]

theorem atMost_zero (offset : σ → Nat) (next : Nat → σ → List σ) (greedy : Bool) (e : σ)
    (x : Counted σ) :
    atMost offset next greedy 0 e x =
      if x.seen.contains (0, offset e) then x
      else
        let entered : Counted σ :=
          ⟨x.seen.insert (0, offset e), if greedy then x.found else e :: x.found⟩
        if greedy then { entered with found := e :: entered.found } else entered := rfl

theorem atMost_succ (offset : σ → Nat) (next : Nat → σ → List σ) (greedy : Bool) (n : Nat) (e : σ)
    (x : Counted σ) :
    atMost offset next greedy (n + 1) e x =
      if x.seen.contains (n + 1, offset e) then x
      else
        let entered : Counted σ :=
          ⟨x.seen.insert (n + 1, offset e), if greedy then x.found else e :: x.found⟩
        let more := (next n e).foldl (fun x f => atMost offset next greedy n f x) entered
        if greedy then { more with found := e :: more.found } else more := rfl

theorem Counted.knows_insert (x : Counted σ) (found : List σ) (k l : Nat × Nat) :
    Counted.Knows (⟨x.seen.insert k, found⟩ : Counted σ) l ↔ l = k ∨ Counted.Knows x l := by
  simp only [Counted.Knows, Std.TreeSet.contains_insert, Bool.or_eq_true, beq_iff_eq,
    Std.LawfulEqCmp.compare_eq_iff_eq, @eq_comm _ l]

theorem atMost_finds (here : Local valid offset next)
    (greedy : Bool) (n : Nat) {e : σ} (ok : valid e) (x : Counted σ) (known : List (Nat × Nat))
    (agrees : ∀ k, Counted.Knows x k ↔ k ∈ known)
    (settled : Settled (fun p : Nat × σ => valid p.2) (fun p => (p.1, offset p.2)) Prod.fst
      (allEnds Prod.fst (levels next) greedy) known n) :
    Finds Prod.snd Counted.found Counted.Knows (fun p : Nat × σ => (p.1, offset p.2)) known
      (allEnds Prod.fst (levels next) greedy (n, e)) x
      (atMost offset (fun _ => next) greedy n e x) := by
  induction n generalizing e x known with
  | zero =>
    rw [atMost_zero]
    split
    next old =>
      exact finds_nothing _ _ _ (settled (0, e) ok (Nat.le_refl _) ((agrees _).mp old)) agrees
    next new =>
      have unknown : (0, offset e) ∉ known := fun member => new ((agrees _).mpr member)
      apply enter_finds Prod.snd Counted.found Counted.Knows (levels_forward here)
        (fun x _ => x) (e := (0, e)) ok unknown settled
        ⟨x.seen.insert (0, offset e), if greedy then x.found else e :: x.found⟩
      · intro k
        rw [Counted.knows_insert, agrees, List.mem_cons]
      · rfl
      · simp [levels]
      · cases greedy <;> simp [levels]
      · intro k
        cases greedy <;> simp [levels, Counted.Knows]
  | succ n ih =>
    rw [atMost_succ]
    split
    next old =>
      exact finds_nothing _ _ _ (settled (n + 1, e) ok (Nat.le_refl _) ((agrees _).mp old)) agrees
    next new =>
      have unknown : (n + 1, offset e) ∉ known := fun member => new ((agrees _).mpr member)
      -- A round leads one level down, where the claim is known.
      apply enter_finds Prod.snd Counted.found Counted.Knows (levels_forward here)
        (fun x p => atMost offset (fun _ => next) greedy p.1 p.2 x) (e := (n + 1, e)) ok unknown
        settled ⟨x.seen.insert (n + 1, offset e), if greedy then x.found else e :: x.found⟩
      · intro k
        rw [Counted.knows_insert, agrees, List.mem_cons]
      · rfl
      · intro p member y known' agrees' settled'
        simp only [levels, List.mem_map] at member
        obtain ⟨f, follows, rfl⟩ := member
        exact ih (here.stays ok follows) y known' agrees' settled'
      · cases greedy <;> simp [levels, List.foldl_map]
      · intro k
        cases greedy <;> simp [levels, List.foldl_map, Counted.Knows]

/-- The ends of at most the given number of rounds from some states are the thinned list of all of
them. -/
theorem upTo_eq (here : Local valid offset next) (greedy : Bool) (n : Nat) {es : List σ}
    (ok : ∀ e ∈ es, valid e) :
    upTo offset (fun _ => next) greedy n es = thin offset (es.flatMap (ends next greedy n)) := by
  have start : ∀ k, Counted.Knows (⟨∅, []⟩ : Counted σ) k ↔ k ∈ [] := by simp [Counted.Knows]
  have listed : ∀ p ∈ es.map fun e => (n, e), p.1 = n ∧ valid p.2 := by simpa using ok
  -- A state with the rounds left to it is explored like any other one.
  have found : Finds Prod.snd Counted.found Counted.Knows (fun p : Nat × σ => (p.1, offset p.2)) []
      ((es.map fun e => (n, e)).flatMap (allEnds Prod.fst (levels next) greedy)) ⟨∅, []⟩
      ((es.map fun e => (n, e)).foldl
        (fun x p => atMost offset (fun _ => next) greedy p.1 p.2 x) ⟨∅, []⟩) := by
    apply foldl_finds Prod.snd Counted.found Counted.Knows (levels_forward here)
      (fun p member => (listed p member).2) ?_ start (settled_nil _ n)
    intro p member y known agrees settled
    obtain ⟨rfl, ok⟩ := listed p member
    exact atMost_finds here greedy p.1 ok y known agrees settled
  rw [List.foldl_map] at found
  rw [upTo, found.1, distinct_eq_thin, List.append_nil, List.reverse_reverse,
    List.map_eq_flatMap, ← thin, thin_flatMap_thin]
  · rw [← List.map_eq_flatMap, List.map_flatMap, List.flatMap_map]
    simp only [map_allEnds_levels]
  · intro p _ q _ same x member
    simp only [List.mem_singleton] at member
    simp [member, (Prod.mk.inj same).2]

end Counted

end Ripple.Rounds
