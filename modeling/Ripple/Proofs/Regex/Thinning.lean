import Ripple.Regex.Rounds

/-!
Thinning: of the members of a list that share a key, only the first is kept. A search that follows
up each place once computes a thinned list, and what it computes does not depend on whether the
lists on the way were thinned. So results are stated for the full list, and thinned at the end.
-/

namespace Ripple.Rounds

variable {σ τ κ ι : Type} [DecidableEq κ] [DecidableEq ι] (key : σ → κ)

/-- The members of a list whose keys are not known, each key once. -/
def fresh (known : List κ) : List σ → List σ
  | [] => []
  | e :: es => if key e ∈ known then fresh known es else e :: fresh (key e :: known) es

/-- The members of a list that do not repeat the key of an earlier one. -/
def thin (es : List σ) : List σ := fresh key [] es

theorem fresh_congr (known other : List κ) (same : ∀ k, k ∈ known ↔ k ∈ other) (es : List σ) :
    fresh key known es = fresh key other es := by
  induction es generalizing known other with
  | nil => rfl
  | cons e es ih =>
    simp only [fresh, same (key e)]
    split
    · exact ih known other same
    · rw [ih (key e :: known) (key e :: other) fun k => by simp [same k]]

theorem fresh_append (known : List κ) (es fs : List σ) :
    fresh key known (es ++ fs) = fresh key known es ++ fresh key (es.map key ++ known) fs := by
  induction es generalizing known with
  | nil => rfl
  | cons e es ih =>
    simp only [List.cons_append, fresh]
    split
    next old =>
      rw [ih, fresh_congr key (es.map key ++ known) ((e :: es).map key ++ known)]
      intro k
      simp only [List.map_cons, List.mem_append, List.mem_cons]
      grind
    next new =>
      rw [ih, List.cons_append,
        fresh_congr key (es.map key ++ key e :: known) ((e :: es).map key ++ known)]
      intro k
      simp only [List.map_cons, List.mem_append, List.mem_cons]
      grind

theorem fresh_eq_nil {known : List κ} {es : List σ} (old : ∀ e ∈ es, key e ∈ known) :
    fresh key known es = [] := by
  induction es with
  | nil => rfl
  | cons e es ih =>
    simp only [List.mem_cons, forall_eq_or_imp] at old
    simp only [fresh, old.1, if_true, ih old.2]

/-- What is known already can be taken away afterwards. -/
theorem fresh_append_known (known other : List κ) (es : List σ) :
    fresh key (known ++ other) es = (fresh key other es).filter fun e => key e ∉ known := by
  induction es generalizing other with
  | nil => rfl
  | cons e es ih =>
    simp only [fresh, List.mem_append]
    by_cases old : key e ∈ other
    · simp only [old, or_true, if_true, ih]
    · by_cases here : key e ∈ known
      · simp only [here, old, true_or, if_true, if_false, List.filter_cons, not_true_eq_false,
          decide_false, Bool.false_eq_true, ← ih]
        apply fresh_congr
        intro k
        simp only [List.mem_append, List.mem_cons]
        grind
      · simp only [here, old, or_self, if_false, List.filter_cons, not_false_eq_true, decide_true,
          if_true, ← ih]
        rw [fresh_congr key (key e :: (known ++ other)) (known ++ key e :: other)]
        intro k
        simp only [List.mem_append, List.mem_cons]
        grind

theorem fresh_eq_filter (known : List κ) (es : List σ) :
    fresh key known es = (thin key es).filter fun e => key e ∉ known := by
  simpa [thin] using fresh_append_known key known [] es

theorem fresh_eq_of_thin_eq {es fs : List σ} (same : thin key es = thin key fs) (known : List κ) :
    fresh key known es = fresh key known fs := by
  rw [fresh_eq_filter, same, ← fresh_eq_filter]

theorem fresh_sublist (known : List κ) (es : List σ) : (fresh key known es).Sublist es := by
  induction es generalizing known with
  | nil => exact .slnil
  | cons e es ih =>
    simp only [fresh]
    split
    · exact .cons e (ih known)
    · exact .cons_cons e (ih _)

theorem thin_sublist (es : List σ) : (thin key es).Sublist es := fresh_sublist key [] es

/-- Every key of a list is known or kept. -/
theorem key_mem_fresh (known : List κ) {es : List σ} {e : σ} (member : e ∈ es) :
    key e ∈ known ∨ key e ∈ (fresh key known es).map key := by
  induction es generalizing known with
  | nil => simp at member
  | cons f es ih =>
    simp only [fresh]
    rcases List.mem_cons.mp member with rfl | member
    · by_cases old : key e ∈ known <;> simp [old]
    · split
      · exact ih known member
      · have found := ih (key f :: known) member
        simp only [List.mem_cons, List.map_cons] at found ⊢
        grind

theorem mem_map_thin_iff (es : List σ) (k : κ) : k ∈ (thin key es).map key ↔ k ∈ es.map key := by
  constructor
  · intro kept
    exact ((thin_sublist key es).map key).subset kept
  · intro listed
    obtain ⟨e, member, rfl⟩ := List.mem_map.mp listed
    simpa [thin] using key_mem_fresh key [] member

theorem mem_map_iff_of_thin_eq {es fs : List σ} (same : thin key es = thin key fs) (k : κ) :
    k ∈ es.map key ↔ k ∈ fs.map key := by
  rw [← mem_map_thin_iff, same, mem_map_thin_iff]

theorem thin_append (es fs : List σ) : thin key (es ++ fs) = thin key es ++ fresh key (es.map key) fs := by
  rw [thin, fresh_append, List.append_nil, thin]

theorem thin_append_congr {es es' fs fs' : List σ} (left : thin key es = thin key es')
    (right : thin key fs = thin key fs') : thin key (es ++ fs) = thin key (es' ++ fs') := by
  rw [thin_append, thin_append, left, fresh_eq_of_thin_eq key right,
    fresh_congr key (es.map key) (es'.map key) (mem_map_iff_of_thin_eq key left)]

theorem thin_flatMap_congr {es : List τ} {g g' : τ → List σ}
    (same : ∀ e ∈ es, thin key (g e) = thin key (g' e)) :
    thin key (es.flatMap g) = thin key (es.flatMap g') := by
  induction es with
  | nil => rfl
  | cons e es ih =>
    simp only [List.mem_cons, forall_eq_or_imp] at same
    simp only [List.flatMap_cons]
    exact thin_append_congr key same.1 (ih same.2)

theorem thin_thin (es : List σ) : thin key (thin key es) = thin key es := by
  suffices general : ∀ known, fresh key known (fresh key known es) = fresh key known es from general []
  induction es with
  | nil => intro known; rfl
  | cons e es ih =>
    intro known
    simp only [fresh]
    split
    · exact ih known
    next new => simp only [fresh, if_neg new, ih]

/-- Members with distinct keys are all kept. -/
theorem thin_of_nodup {es : List σ} (distinct : (es.map key).Nodup) : thin key es = es := by
  suffices general : ∀ known, (∀ e ∈ es, key e ∉ known) → fresh key known es = es from
    general [] fun _ _ => List.not_mem_nil
  induction es with
  | nil => intro known _; rfl
  | cons e es ih =>
    intro known apart
    simp only [List.map_cons, List.nodup_cons, List.mem_map, not_exists, not_and] at distinct
    simp only [List.mem_cons, forall_eq_or_imp] at apart
    rw [fresh, if_neg apart.1, ih distinct.2]
    intro f member
    simp only [List.mem_cons, not_or]
    exact ⟨distinct.1 f member, apart.2 f member⟩

theorem nodup_map_fresh (known : List κ) (es : List σ) : ((fresh key known es).map key).Nodup := by
  induction es generalizing known with
  | nil => exact .nil
  | cons e es ih =>
    simp only [fresh]
    split
    · exact ih known
    · simp only [List.map_cons, List.nodup_cons]
      refine ⟨fun repeated => ?_, ih _⟩
      obtain ⟨f, kept, same⟩ := List.mem_map.mp repeated
      rw [fresh_eq_filter] at kept
      simp [same] at kept

/-- What follows a member whose key was met before brings no new key, if it depends on the key
alone. -/
theorem fresh_flatMap_fresh {es : List τ} {other : τ → ι} {g : τ → List σ} {known : List κ}
    {seen : List ι}
    (settled : ∀ e ∈ es, other e ∈ seen → ∀ x ∈ g e, key x ∈ known)
    (determined : ∀ e ∈ es, ∀ f ∈ es, other e = other f → ∀ x ∈ g e, key x ∈ (g f).map key) :
    fresh key known ((fresh other seen es).flatMap g) = fresh key known (es.flatMap g) := by
  induction es generalizing known seen with
  | nil => rfl
  | cons e es ih =>
    simp only [List.mem_cons, forall_eq_or_imp] at settled determined
    simp only [fresh, List.flatMap_cons, fresh_append]
    split
    next old =>
      -- What comes of an element seen before is known already.
      rw [fresh_eq_nil key (settled.1 old), List.nil_append]
      rw [ih settled.2 fun f member => (determined.2 f member).2]
      apply fresh_congr
      intro k
      simp only [List.mem_append, List.mem_map]
      constructor
      · exact .inr
      · rintro (⟨x, member, rfl⟩ | member)
        · exact settled.1 old x member
        · exact member
    next new =>
      -- A later element of the same kind adds nothing to what this one gives.
      rw [List.flatMap_cons, fresh_append]
      congr 1
      apply ih
      · intro f member seen x follows
        rcases List.mem_cons.mp seen with same | seen
        · exact List.mem_append_left _ ((determined.2 f member).1 same x follows)
        · exact List.mem_append_right _ (settled.2 f member seen x follows)
      · exact fun f member => (determined.2 f member).2

theorem thin_flatMap_thin {es : List τ} {other : τ → ι} {g : τ → List σ}
    (determined : ∀ e ∈ es, ∀ f ∈ es, other e = other f → ∀ x ∈ g e, key x ∈ (g f).map key) :
    thin key ((thin other es).flatMap g) = thin key (es.flatMap g) :=
  fresh_flatMap_fresh key (by simp) determined

theorem fresh_map {g : τ → σ} (known : List κ) (es : List τ) :
    fresh key known (es.map g) = (fresh (fun e => key (g e)) known es).map g := by
  induction es generalizing known with
  | nil => rfl
  | cons e es ih =>
    simp only [List.map_cons, fresh]
    split <;> simp [ih]

theorem thin_map {g : τ → σ} (es : List τ) :
    thin key (es.map g) = (thin (fun e => key (g e)) es).map g := fresh_map key [] es

theorem distinct_go_eq (offset : σ → Nat) (es : List σ) (seen : Std.TreeSet Nat) (known : List Nat)
    (agrees : ∀ o, seen.contains o = true ↔ o ∈ known) :
    distinct.go offset es seen = fresh offset known es := by
  induction es generalizing seen known with
  | nil => rfl
  | cons e es ih =>
    simp only [distinct.go, fresh, agrees]
    split
    · exact ih seen known agrees
    · rw [ih _ (offset e :: known)]
      intro o
      simp only [Std.TreeSet.contains_insert, Bool.or_eq_true, agrees, List.mem_cons, beq_iff_eq,
        Nat.compare_eq_eq, @eq_comm Nat o]

/-- The states that do not repeat an offset are the thinned list. -/
theorem distinct_eq_thin (offset : σ → Nat) (es : List σ) : distinct offset es = thin offset es := by
  match es with
  | [] => rfl
  | [e] => simp [distinct, thin, fresh]
  | e :: f :: es => exact distinct_go_eq offset _ ∅ [] (by simp)

end Ripple.Rounds
