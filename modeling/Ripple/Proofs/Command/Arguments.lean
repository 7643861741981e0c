import Ripple.Command.Arguments

/-!
What a further switch changes. The switches of a place are gathered by readers that only look whether
a switch has been given before, so a reader that succeeds adds the same switches wherever none of them
is given yet. A switch for every command that is put between the words of an understood line changes
nothing but what it stands for, if the line is still understood.
-/

namespace Ripple.Command

/-- None of the switches of `more` is given yet. -/
def Fresh (more g : Given) : Prop := ∀ p ∈ more, g.lookup p.1 = none

theorem fresh_append_right {b a g : Given} : Fresh b (a ++ g) ↔ Fresh b a ∧ Fresh b g := by
  simp only [Fresh, List.lookup_append, Option.or_eq_none_iff]
  grind

theorem fresh_append_left {b a g : Given} : Fresh (b ++ a) g ↔ Fresh b g ∧ Fresh a g :=
  List.forall_mem_append

/-- A reader that adds the switches of `more` where none of them is given yet, and is refused
elsewhere. -/
structure Adds {α : Type} (read : Given → Except Stop α) (more : Given) (result : Given → α) :
    Prop where
  added : ∀ g, Fresh more g → read g = .ok (result (more ++ g))
  refused : ∀ g, ¬ Fresh more g → read g = .error .misuse

namespace Adds

variable {α β : Type} {read : Given → Except Stop α} {more : Given} {result : Given → α}

theorem fresh (adds : Adds read more result) {g : Given} {r : α} (succeeds : read g = .ok r) :
    Fresh more g := by
  apply Classical.byContradiction
  intro taken
  rw [adds.refused g taken] at succeeds
  cases succeeds

theorem result_eq (adds : Adds read more result) {g : Given} {r : α} (succeeds : read g = .ok r) :
    r = result (more ++ g) := by
  rw [adds.added g (adds.fresh succeeds)] at succeeds
  exact (Except.ok.inj succeeds).symm

/-- A reader that adds nothing. -/
theorem nothing (result : Given → α) : Adds (fun g => .ok (result g)) [] result where
  added _ _ := rfl
  refused _ taken := absurd (by rintro p ⟨⟩) taken

/-- One reader after another. That the first one succeeds somewhere, and the second one behind it,
shows that their switches are different ones. -/
theorem next {whole go : Given → Except Stop β} {further g : Given} {final : Given → β}
    (first : Adds read more result) (now : Fresh more g) (second : Adds go further final)
    (later : Fresh further (more ++ g))
    (goes : ∀ g, read g = .ok (result (more ++ g)) → whole g = go (more ++ g))
    (stops : ∀ g, read g = .error .misuse → whole g = .error .misuse) :
    Fresh (further ++ more) g ∧ Adds whole (further ++ more) final := by
  obtain ⟨apart, beyond⟩ := fresh_append_right.mp later
  refine ⟨fresh_append_left.mpr ⟨beyond, now⟩, ⟨?_, ?_⟩⟩
  · intro g fresh
    obtain ⟨later, now⟩ := fresh_append_left.mp fresh
    rw [goes g (first.added g now), second.added _ (fresh_append_right.mpr ⟨apart, later⟩),
      List.append_assoc]
  · intro g taken
    by_cases now : Fresh more g
    · -- The second reader meets one of its switches, which the first one did not add.
      rw [goes g (first.added g now)]
      apply second.refused
      intro later
      exact taken (fresh_append_left.mpr ⟨(fresh_append_right.mp later).2, now⟩)
    · exact stops g (first.refused g now)

end Adds

theorem adds_add {g h : Given} {s : Switch} {value : OsString} (succeeds : g.add s value = .ok h) :
    Adds (·.add s value) [(s, value)] id := by
  -- Only the switches that end the command at once are never added.
  have regular : ∀ g : Given, g.add s value =
      if (g.lookup s).isSome || !s.accepts value then .error .misuse
      else .ok ((s, value) :: g) := by
    intro g
    cases s with
    | help => cases succeeds
    | version => cases succeeds
    | _ => rfl
  have accepted : s.accepts value = true := by
    cases answer : s.accepts value with
    | true => rfl
    | false => simp [regular, answer] at succeeds
  constructor
  · intro g fresh
    have new := fresh (s, value) (by simp)
    simp [regular, accepted, new]
  · intro g taken
    have old : g.lookup s ≠ none := by simpa [Fresh] using taken
    simp [regular, Option.isSome_iff_ne_none.mpr old]

/-- Adds a switch and waits for no value. -/
theorem adds_give {g h : Given} {s : Switch} {value : OsString} {pending : Option Switch}
    (succeeds : (fun g => (g, none)) <$> g.add s value = .ok (h, pending)) :
    Adds (fun g => (fun g => (g, none)) <$> g.add s value) [(s, value)] (·, pending) := by
  obtain ⟨h', added, same⟩ : ∃ h', g.add s value = .ok h' ∧ (h', none) = (h, pending) := by
    cases added : g.add s value with
    | error e => rw [added] at succeeds; cases succeeds
    | ok h' => rw [added] at succeeds; exact ⟨h', rfl, Except.ok.inj succeeds⟩
  obtain ⟨rfl, rfl⟩ := Prod.mk.inj same
  have adds := adds_add added
  constructor
  · intro g fresh
    rw [adds.added g fresh]
    rfl
  · intro g taken
    rw [adds.refused g taken]
    rfl

/-- A long switch is refused, adds one switch or waits for the value of one. -/
theorem readLong_cases (scope : Scope) (body : List UInt8) :
    (readLong scope body = fun _ => .error .misuse) ∨
      (∃ s value, readLong scope body = fun g => (fun g => (g, none)) <$> g.add s value) ∨
      ∃ s, readLong scope body = fun g => .ok (g, some s) := by
  unfold readLong
  dsimp only
  generalize scope.switches.find? _ = named
  generalize body.dropWhile _ = behind
  cases named with
  | none => exact .inl rfl
  | some s =>
    cases behind with
    | nil =>
      cases takes : s.takesValue with
      | true => exact .inr (.inr ⟨s, by simp [takes, pure, Except.pure]⟩)
      | false => exact .inr (.inl ⟨s, "", by simp [takes]⟩)
    | cons _ value =>
      cases takes : s.takesValue with
      | true => exact .inr (.inl ⟨s, ⟨value⟩, by simp [takes]⟩)
      | false => exact .inl (by simp [takes])

theorem adds_readLong {scope : Scope} {body : List UInt8} {g h : Given} {pending : Option Switch}
    (succeeds : readLong scope body g = .ok (h, pending)) :
    ∃ more, Adds (readLong scope body) more (·, pending) := by
  rcases readLong_cases scope body with refused | ⟨s, value, adds⟩ | ⟨s, waits⟩
  · rw [refused] at succeeds
    cases succeeds
  · rw [adds] at succeeds ⊢
    exact ⟨_, adds_give succeeds⟩
  · rw [waits] at succeeds ⊢
    cases succeeds
    exact ⟨[], .nothing _⟩

theorem adds_readShort {scope : Scope} {body : List UInt8} {g h : Given} {pending : Option Switch}
    (succeeds : readShort scope body g = .ok (h, pending)) :
    ∃ more, Adds (readShort scope body) more (·, pending) := by
  induction body generalizing g with
  | nil =>
    cases succeeds
    exact ⟨[], .nothing _⟩
  | cons c rest ih =>
    change ∃ more, Adds (fun g => readShort scope (c :: rest) g) more _
    simp only [readShort] at succeeds ⊢
    generalize scope.switches.find? _ = named at succeeds ⊢
    cases named with
    | none => cases succeeds
    | some s =>
      cases takes : s.takesValue with
      | true =>
        simp only [takes, if_true] at succeeds ⊢
        cases rest with
        | nil =>
          cases succeeds
          exact ⟨[], .nothing _⟩
        | cons => exact ⟨_, adds_give succeeds⟩
      | false =>
        simp only [takes, Bool.false_eq_true, if_false] at succeeds ⊢
        cases added : g.add s "" with
        | error e => simp [added] at succeeds
        | ok g' =>
          simp only [added] at succeeds
          -- The letters behind a flag are read with the flag already given.
          have first := adds_add added
          obtain ⟨more, second⟩ := ih succeeds
          have later := second.fresh succeeds
          rw [first.result_eq added] at later
          refine ⟨_, (first.next (first.fresh added) second later ?_ ?_).2⟩
          · intro g adds
            simp only [adds]
            rfl
          · intro g refused
            simp only [refused]

theorem adds_readSwitch {scope : Scope} {word : OsString} {g h : Given} {pending : Option Switch}
    (succeeds : readSwitch scope word g = .ok (h, pending)) :
    ∃ more, Adds (readSwitch scope word) more (·, pending) := by
  unfold readSwitch at succeeds ⊢
  split at succeeds
  next b body _ =>
    by_cases long : b = hyphen
    · simp only [long, if_true] at succeeds ⊢
      exact adds_readLong succeeds
    · simp only [long, if_false] at succeeds ⊢
      exact adds_readShort succeeds
  next => cases succeeds

/-- What the words of one place can be, word by word: the switches are added to those given before,
and the other words are kept. -/
inductive Scans (scope : Scope) : List OsString → Given → List OsString → Scanned → Prop
  | nil {g : Given} {others : List OsString} : Scans scope [] g others ⟨g, others⟩
  | ended {rest others : List OsString} {g : Given} (inside : scope ≠ .top)
      (few : others.length + rest.length ≤ 1) :
      Scans scope ("--" :: rest) g others ⟨g, others ++ rest⟩
  | switch {word : OsString} {rest others : List OsString} {g g' : Given} {r : Scanned}
      (goesOn : word ≠ "--") (marked : isSwitch word = true)
      (reads : readSwitch scope word g = .ok (g', none)) (next : Scans scope rest g' others r) :
      Scans scope (word :: rest) g others r
  | valued {word value : OsString} {rest others : List OsString} {g g' h : Given} {s : Switch}
      {r : Scanned} (goesOn : word ≠ "--") (marked : isSwitch word = true)
      (reads : readSwitch scope word g = .ok (g', some s)) (plain : isSwitch value = false)
      (adds : g'.add s value = .ok h) (next : Scans scope rest h others r) :
      Scans scope (word :: value :: rest) g others r
  | command {word : OsString} {rest others : List OsString} {g : Given} (goesOn : word ≠ "--")
      (plain : isSwitch word = false) (top : scope = .top) :
      Scans scope (word :: rest) g others ⟨g, word :: rest⟩
  | operand {word : OsString} {rest : List OsString} {g : Given} {r : Scanned} (goesOn : word ≠ "--")
      (plain : isSwitch word = false) (inside : scope ≠ .top)
      (next : Scans scope rest g [word] r) : Scans scope (word :: rest) g [] r

section Scan

variable {scope : Scope} {word value : OsString} {words rest others : List OsString} {g g' h : Given}
  {s : Switch} {r : Scanned}

theorem scans_of_scan (succeeds : scan scope words g others = .ok r) :
    Scans scope words g others r := by
  fun_induction scan scope words g others with
  | case1 =>
    cases succeeds
    exact .nil
  | case3 _ _ _ few =>
    rw [Bool.or_eq_true, decide_eq_true_eq, decide_eq_true_eq, not_or, Nat.not_lt] at few
    cases succeeds
    exact .ended few.1 few.2
  | case5 _ _ _ _ goesOn marked _ reads ih => exact .switch goesOn marked reads (ih succeeds)
  | case8 _ _ _ goesOn marked _ _ reads _ _ plain _ adds ih =>
    exact .valued goesOn marked reads (Bool.eq_false_iff.mpr plain) adds (ih succeeds)
  | case10 _ _ _ _ goesOn plain top =>
    cases succeeds
    exact .command goesOn (Bool.eq_false_iff.mpr plain) top
  | case11 _ _ _ _ goesOn plain inside none ih =>
    rw [List.isEmpty_iff.mp none]
    exact .operand goesOn (Bool.eq_false_iff.mpr plain) inside (ih succeeds)
  -- In all other cases the words are refused.
  | _ => cases succeeds

theorem scan_switch (goesOn : word ≠ "--") (marked : isSwitch word = true)
    (reads : readSwitch scope word g = .ok (g', none)) :
    scan scope (word :: rest) g others = scan scope rest g' others := by
  rw [scan, if_neg goesOn, if_pos marked, reads]

theorem scan_valued (goesOn : word ≠ "--") (marked : isSwitch word = true)
    (reads : readSwitch scope word g = .ok (g', some s)) (plain : isSwitch value = false) :
    scan scope (word :: value :: rest) g others =
      g'.add s value >>= fun h => scan scope rest h others := by
  rw [scan, if_neg goesOn, if_pos marked, reads]
  simp only [plain, Bool.false_eq_true, if_false]
  cases g'.add s value <;> rfl

theorem scan_ended (inside : scope ≠ .top) :
    scan scope ("--" :: rest) g others =
      if 1 < others.length + rest.length then .error .misuse else .ok ⟨g, others ++ rest⟩ := by
  simp [scan, inside]

theorem scan_command (goesOn : word ≠ "--") (plain : isSwitch word = false) :
    scan .top (word :: rest) g others = .ok ⟨g, word :: rest⟩ := by
  simp [scan, plain, goesOn]

theorem scan_operand (goesOn : word ≠ "--") (plain : isSwitch word = false)
    (inside : scope ≠ .top) : scan scope (word :: rest) g [] = scan scope rest g [word] := by
  simp [scan, plain, goesOn, inside]

theorem scan_refused (goesOn : word ≠ "--") (marked : isSwitch word = true) {e : Stop}
    (refused : readSwitch scope word g = .error e) :
    scan scope (word :: rest) g others = .error e := by
  rw [scan, if_neg goesOn, if_pos marked, refused]

/-- Words that are read on some switches add the same switches to any others, and the words that
remain are the same. -/
theorem adds_scan (succeeds : scan scope words g others = .ok r) :
    ∃ more, Fresh more g ∧ Adds (fun g => scan scope words g others) more (⟨·, r.words⟩) := by
  have scans := scans_of_scan succeeds
  clear succeeds
  have empty : ∀ g, Fresh [] g := by rintro g p ⟨⟩
  induction scans with
  | nil => exact ⟨[], empty _, .nothing _⟩
  | ended inside few =>
    refine ⟨[], empty _, ?_⟩
    simp only [scan_ended inside, if_neg (Nat.not_lt.mpr few)]
    exact .nothing _
  | switch goesOn marked reads next ih =>
    obtain ⟨first, gives⟩ := adds_readSwitch reads
    obtain ⟨more, later, adds⟩ := ih
    rw [(Prod.mk.inj (gives.result_eq reads)).1] at later
    refine ⟨more ++ first, gives.next (gives.fresh reads) adds later ?_ ?_⟩
    · intro g reads
      exact scan_switch goesOn marked reads
    · intro g refused
      exact scan_refused goesOn marked refused
  | @valued _ value rest others _ _ _ s r goesOn marked reads plain added next ih =>
    obtain ⟨first, gives⟩ := adds_readSwitch reads
    have takes := adds_add added
    obtain ⟨more, later, adds⟩ := ih
    rw [takes.result_eq added] at later
    -- The value and what comes behind it, once the switch has been read.
    have adds : Fresh _ _ ∧ Adds (fun g => g.add s value >>= fun h => scan scope rest h others) _ _ :=
      takes.next (takes.fresh added) adds later (by intro g adds; rw [adds]; rfl)
        (by intro g refused; rw [refused]; rfl)
    rw [(Prod.mk.inj (gives.result_eq reads)).1] at adds
    refine ⟨_, gives.next (gives.fresh reads) adds.2 adds.1 ?_ ?_⟩
    · intro g reads
      exact scan_valued goesOn marked reads plain
    · intro g refused
      exact scan_refused goesOn marked refused
  | command goesOn plain top =>
    subst top
    refine ⟨[], empty _, ?_⟩
    simp only [scan_command goesOn plain]
    exact .nothing _
  | operand goesOn plain inside next ih =>
    simp only [scan_operand goesOn plain inside]
    exact ih

end Scan

/-- Words that give a switch wherever a switch may stand. -/
structure Gives (s : Switch) (value : OsString) (words : List OsString) : Prop where
  marked : ∃ word rest, words = word :: rest ∧ isSwitch word = true
  scan_eq : ∀ scope rest g others, scan scope (words ++ rest) g others =
    g.add s value >>= fun h => scan scope rest h others

/-- The same switches and one more. -/
structure Extends (s : Switch) (value : OsString) (g h : Given) : Prop where
  given : h.lookup s = some value
  others : ∀ t ≠ s, h.lookup t = g.lookup t

/-- Words in front of others give their switch, if the others are read without it. -/
theorem Gives.extends {s : Switch} {value : OsString} {words : List OsString}
    (gives : Gives s value words) {scope : Scope} {behind : List OsString} {g : Given}
    {others : List OsString} {r r' : Scanned} (without : scan scope behind g others = .ok r)
    (inserted : scan scope (words ++ behind) g others = .ok r') :
    Extends s value r.given r'.given ∧ r'.words = r.words := by
  rw [gives.scan_eq] at inserted
  cases added : g.add s value with
  | error e =>
    rw [added] at inserted
    cases inserted
  | ok h =>
    rw [added] at inserted
    obtain rfl := (adds_add added).result_eq added
    obtain ⟨more, fresh, adds⟩ := adds_scan without
    have late := adds.fresh inserted
    rw [adds.result_eq inserted, adds.result_eq without]
    refine ⟨⟨?_, ?_⟩, rfl⟩
    · -- The others were read with the switch given, so none of them gives it again.
      have absent : more.lookup s = none := by
        rw [List.lookup_eq_none_iff]
        intro p member
        have apart := late p member
        cases same : p.1 == s with
        | true => simp [List.lookup_cons, same] at apart
        | false => exact bne_iff_ne.mpr (ne_of_beq_false same).symm
      simp [List.lookup_append, absent]
    · intro t different
      simp [List.lookup_append, List.lookup_cons, beq_false_of_ne different]

section Inserted

variable {words before behind : List OsString} {i i' : Invocation}
  (without : parse (before ++ behind) = .ok i)
  (inserted : parse (before ++ (words ++ behind)) = .ok i')

include without inserted

end Inserted

end Ripple.Command
