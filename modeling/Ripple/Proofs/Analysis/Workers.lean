import Ripple.Analysis.Dependents
import Ripple.Proofs.Ascending

/-!
The workers of a search. Whoever takes the next step, each worker stands where its candidate has led
it, the counter, the flag and the reports say what the workers have done so far, and the patterns
that are kept are those of their languages. When all workers are done, nothing is left of the order
in which they took their steps.
-/

namespace Ripple

/-- The steps that a worker may still take. -/
def Stage.left : Stage → Nat
  | waiting => 5
  | inTime => 4
  | counted => 3
  | promising _ _ => 2
  | confirmed => 1
  | done _ => 0

namespace Query

/-- The patterns of the language at an index, whoever fills them. -/
def ownPatterns (q : Query) (index : Nat) : List Pattern :=
  (q.engine.table.languages[index]?.map q.fill).getD []

/-- Whether the patterns of its language tell that a candidate imports the module. -/
def isDependent (q : Query) (candidate : List OsString) : Bool :=
  match q.look candidate with
  | .promising index source => (q.ownPatterns index).any (·.matchesIn source.toList)
  | _ => false

theorem isDependent_iff {q : Query} {candidate : List OsString} :
    q.isDependent candidate = true ↔ ∃ l source patterns,
      q.engine.table.ofPath? (Files.pathOf (q.root ++ candidate)) = some l ∧
      (q.files.readAt (q.root ++ candidate) >>= Files.decode) = .ok source ∧
      l.dependencyPatterns q.stem = .ok patterns ∧ q.precheck source = true ∧
      ∃ pattern ∈ patterns, pattern.matchesIn source.toList = true := by
  rw [isDependent, look]
  simp only [LanguageTable.ofPath?]
  cases q.engine.table.indexOfPath? (Files.pathOf (q.root ++ candidate)) with
  | none => simp
  | some index =>
    cases q.files.readAt (q.root ++ candidate) >>= Files.decode with
    | error => simp
    | ok source =>
      cases passed : q.precheck source with
      | false => simp [passed]
      | true =>
        -- The table gives an index, and the patterns are those of the language at that place.
        simp only [passed, if_true, ownPatterns, Option.bind_some]
        cases q.engine.table.languages[index]? with
        | none => simp
        | some l =>
          cases filled : l.dependencyPatterns q.stem <;> simp [fill, filled, passed]

/-- A candidate whose turn comes before the deadline. -/
def inTime (expired : Deadline) (candidate : List OsString) : Bool :=
  !expired (Path.ofComponents candidate)

/-- The candidates that a search reports. -/
def reports (q : Query) (expired : Deadline) (candidate : List OsString) : Bool :=
  inTime expired candidate && q.isDependent candidate

/-- A worker is at a stage to which its candidate leads. -/
def Fits (q : Query) (expired : Deadline) (w : Worker) : Prop :=
  match w.stage with
  | .waiting => True
  | .inTime | .counted => inTime expired w.candidate = true
  | .promising index source =>
    inTime expired w.candidate = true ∧ q.look w.candidate = .promising index source
  | .confirmed => q.reports expired w.candidate = true
  | .done dependent => dependent = q.reports expired w.candidate

/-- A worker has counted its candidate. -/
def counts (expired : Deadline) (w : Worker) : Bool :=
  match w.stage with
  | .waiting | .inTime => false
  | .counted | .promising _ _ | .confirmed => true
  | .done _ => inTime expired w.candidate

/-- A worker has found its candidate to be too late. -/
def late (expired : Deadline) (w : Worker) : Bool :=
  match w.stage with
  | .done _ => !inTime expired w.candidate
  | _ => false

/-- What a worker has reported. -/
def reportOf (w : Worker) : List OsString :=
  if w.stage = .done true then [Path.ofComponents w.candidate] else []

/-- Of each language, no patterns or its own ones are kept. -/
structure Keeps (q : Query) (patterns : List (Option (List Pattern))) : Prop where
  length_eq : patterns.length = q.engine.table.languages.length
  own : ∀ index kept, patterns[index]? = some (some kept) → kept = q.ownPatterns index

/-- What the workers share agrees with where they are. -/
structure Sound (q : Query) (expired : Deadline) (s : Search) : Prop where
  fits : ∀ w ∈ s.workers.toList, q.Fits expired w
  scanned_eq : s.shared.scanned = s.workers.toList.countP (counts expired)
  timedOut_eq : s.shared.timedOut = s.workers.toList.any (late expired)
  reported_perm : s.shared.reported.Perm (s.workers.toList.flatMap reportOf)
  keeps : q.Keeps s.shared.patterns

variable {q : Query} {expired : Deadline}

/-- Whoever asks for the patterns of a language gets its own ones, and nothing else changes. -/
theorem patternsAt_spec {s : Shared} (keeps : q.Keeps s.patterns) (index : Nat) :
    ∃ patterns, q.patternsAt s index = (q.ownPatterns index, { s with patterns := patterns }) ∧
      q.Keeps patterns := by
  rw [patternsAt]
  split
  next _ _ kept found => exact ⟨s.patterns, by rw [keeps.own index kept found], keeps⟩
  next _ _ l unfilled registered =>
    -- Filled now, the patterns are kept for the other workers.
    have own : q.ownPatterns index = q.fill l := by simp [ownPatterns, registered]
    refine ⟨s.patterns.set index (some (q.fill l)), by rw [own], ?_, fun other kept found => ?_⟩
    · rw [List.length_set, keeps.length_eq]
    · rw [List.getElem?_set] at found
      split at found
      next same =>
        subst same
        split at found
        · rw [own]
          simpa using found.symm
        · simp at found
      next => exact keeps.own other kept found
  next others kept =>
    refine ⟨s.patterns, ?_, keeps⟩
    -- An index at which nothing is kept is not that of a language.
    have missing : q.engine.table.languages[index]? = none := by
      cases registered : q.engine.table.languages[index]? with
      | none => rfl
      | some l =>
        have inside : index < s.patterns.length := by
          rw [keeps.length_eq]
          exact (List.getElem?_eq_some_iff.mp registered).1
        have entry := List.getElem?_eq_getElem inside
        cases filled : s.patterns[index] with
        | none => exact absurd registered (kept l (by rw [entry, filled]))
        | some patterns => exact absurd (by rw [entry, filled]) (others patterns)
    simp [ownPatterns, missing]

theorem look_cases (q : Query) (candidate : List OsString) :
    (∃ index source, q.look candidate = .promising index source) ∨
      q.look candidate = .done false := by
  rw [look]
  split
  next => exact .inr rfl
  next index _ =>
    split
    next source _ =>
      split
      · exact .inl ⟨index, source, rfl⟩
      · exact .inr rfl
    next => exact .inr rfl

/-- What an action does to the worker who takes it and to what is shared: just what the worker has
done by then is added to what it had done before. -/
structure Moves (q : Query) (expired : Deadline) (s s' : Shared) (w w' : Worker) : Prop where
  candidate_eq : w'.candidate = w.candidate
  fits : q.Fits expired w'
  fewer : w'.stage.left ≤ w.stage.left - 1
  keeps : q.Keeps s'.patterns
  scanned_eq : s'.scanned + (if counts expired w then 1 else 0) =
    s.scanned + if counts expired w' then 1 else 0
  stays : late expired w = true → late expired w' = true
  timedOut_eq : s'.timedOut = (s.timedOut || (late expired w' && !late expired w))
  reported_eq : ∃ fresh, s'.reported = fresh ++ s.reported ∧ reportOf w' = reportOf w ++ fresh

theorem act_moves {s : Shared} {w : Worker} (fits : q.Fits expired w) (keeps : q.Keeps s.patterns) :
    q.Moves expired s (q.act expired s w).2 w ⟨w.candidate, (q.act expired s w).1⟩ := by
  obtain ⟨candidate, stage⟩ := w
  cases stage with
  | waiting =>
    by_cases tooLate : expired (Path.ofComponents candidate) = true
    · constructor <;>
        simp [act, Fits, reports, inTime, tooLate, Stage.left, keeps, counts, late, reportOf]
    · constructor <;> simp [act, Fits, inTime, tooLate, Stage.left, keeps, counts, late, reportOf]
  | inTime =>
    have early : inTime expired candidate = true := fits
    constructor <;> simp [act, Fits, early, Stage.left, keeps, counts, late, reportOf]
  | counted =>
    have early : inTime expired candidate = true := fits
    rcases look_cases q candidate with ⟨index, source, promising⟩ | settled
    · constructor <;>
        simp [act, Fits, early, promising, Stage.left, keeps, counts, late, reportOf]
    · have other : q.isDependent candidate = false := by simp [isDependent, settled]
      constructor <;>
        simp [act, Fits, early, settled, other, reports, Stage.left, keeps, counts, late, reportOf]
  | promising index source =>
    obtain ⟨early, looked⟩ : inTime expired candidate = true ∧
      q.look candidate = .promising index source := fits
    obtain ⟨patterns, asked, kept⟩ := patternsAt_spec keeps index
    -- Whether the patterns were kept or have just been filled, they judge the candidate alike.
    have judged : q.isDependent candidate =
        (q.ownPatterns index).any (·.matchesIn source.toList) := by
      simp [isDependent, looked]
    cases matched : (q.ownPatterns index).any (·.matchesIn source.toList) <;> constructor <;>
      simp [act, asked, Fits, reports, early, judged, matched, Stage.left, kept, counts, late,
        reportOf]
  | confirmed =>
    -- Only here something is reported, by a worker that has reported nothing before.
    have reported : q.reports expired candidate = true := fits
    have early : inTime expired candidate = true := by
      rw [reports, Bool.and_eq_true] at reported
      exact reported.1
    constructor <;> simp [act, Fits, reported, early, Stage.left, keeps, counts, late, reportOf]
  | done dependent =>
    have settled : dependent = q.reports expired candidate := fits
    have idle : q.act expired s ⟨candidate, .done dependent⟩ = (.done dependent, s) := rfl
    rw [idle]
    constructor <;> simp [Fits, ← settled, Stage.left, keeps]

theorem Sound.move {s : Search} (sound : q.Sound expired s) {shared : Shared} {w w' : Worker}
    (moves : q.Moves expired s.shared shared w w') {before behind : List Worker}
    (whole : s.workers.toList = before ++ w :: behind) {workers : Array Worker}
    (changed : workers.toList = before ++ w' :: behind) : q.Sound expired ⟨shared, workers⟩ where
  fits := by
    have old := sound.fits
    rw [whole] at old
    dsimp only
    rw [changed]
    intro v listed
    rcases List.mem_append.mp listed with listed | listed
    · exact old v (List.mem_append_left _ listed)
    · rcases List.mem_cons.mp listed with rfl | listed
      · exact moves.fits
      · exact old v (List.mem_append_right _ (List.mem_cons_of_mem _ listed))
  scanned_eq := by
    have old := sound.scanned_eq
    have added := moves.scanned_eq
    dsimp only
    rw [changed]
    rw [whole] at old
    simp only [List.countP_append, List.countP_cons] at old ⊢
    omega
  timedOut_eq := by
    have old := sound.timedOut_eq
    dsimp only
    rw [moves.timedOut_eq, old, whole, changed]
    simp only [List.any_append, List.any_cons]
    cases was : late expired w with
    | false => cases late expired w' <;> simp
    | true => simp [moves.stays was]
  reported_perm := by
    -- What is new stands in front of all the reports, but among the workers at the place of its own.
    obtain ⟨fresh, reported, report⟩ := moves.reported_eq
    have old := sound.reported_perm
    dsimp only
    rw [reported, changed]
    rw [whole] at old
    simp only [List.flatMap_append, List.flatMap_cons, report] at old ⊢
    have swapped := List.perm_append_comm_assoc fresh (before.flatMap reportOf ++ reportOf w)
      (behind.flatMap reportOf)
    simp only [List.append_assoc] at swapped ⊢
    exact (old.append_left fresh).trans swapped
  keeps := moves.keeps

/-- What the turns of some workers make of a search. -/
structure Advances (q : Query) (expired : Deadline) (turns : List Nat) (s s' : Search) : Prop where
  sound : q.Sound expired s'
  candidates_eq : s'.workers.toList.map (·.candidate) = s.workers.toList.map (·.candidate)
  /-- A worker has one step less before it with each of its turns. -/
  left_le : ∀ place w', s'.workers[place]? = some w' →
    ∃ w, s.workers[place]? = some w ∧ w'.stage.left ≤ w.stage.left - turns.count place

/-- The other workers stand before and behind the one whose turn it is. -/
theorem exists_around {workers : Array Worker} {place : Nat} {w : Worker}
    (here : workers[place]? = some w) :
    ∃ before behind, workers.toList = before ++ w :: behind ∧
      ∀ w', (workers.setIfInBounds place w').toList = before ++ w' :: behind := by
  obtain ⟨inside, found⟩ := List.getElem?_eq_some_iff.mp (Array.getElem?_toList.trans here)
  refine ⟨workers.toList.take place, workers.toList.drop (place + 1), ?_, fun w' => ?_⟩
  · rw [← found, List.getElem_cons_drop, List.take_append_drop]
  · rw [Array.toList_setIfInBounds, List.set_eq_take_append_cons_drop, if_pos inside]

/-- A step moves the worker whose turn it is and no other. -/
theorem step_advances {s : Search} (sound : q.Sound expired s) (place : Nat) :
    q.Advances expired [place] s (q.step expired s place) := by
  cases here : s.workers[place]? with
  | none =>
    -- There is no worker at this place.
    have stays : q.step expired s place = s := by simp [step, here]
    rw [stays]
    refine ⟨sound, rfl, fun other w found => ⟨w, found, ?_⟩⟩
    have differs : other ≠ place := by
      rintro rfl
      rw [here] at found
      cases found
    simp [differs.symm]
  | some w =>
    have member : w ∈ s.workers.toList := by
      rw [Array.mem_toList_iff]
      exact Array.mem_of_getElem? here
    have moves := act_moves (sound.fits w member) sound.keeps
    have stepped : q.step expired s place = ⟨(q.act expired s.shared w).2,
        s.workers.setIfInBounds place ⟨w.candidate, (q.act expired s.shared w).1⟩⟩ := by
      simp [step, here]
    rw [stepped]
    obtain ⟨before, behind, whole, changed⟩ := exists_around here
    refine ⟨sound.move moves whole (changed _), ?_, fun other w' found => ?_⟩
    · dsimp only
      rw [changed, whole]
      simp only [List.map_append, List.map_cons]
    · dsimp only at found
      rw [Array.getElem?_setIfInBounds] at found
      split at found
      next same =>
        subst same
        split at found
        · cases found
          exact ⟨w, here, by simpa using moves.fewer⟩
        · cases found
      next differs => exact ⟨w', found, by simp [differs]⟩

theorem turns_advance {s : Search} (sound : q.Sound expired s) (turns : List Nat) :
    q.Advances expired turns s (turns.foldl (q.step expired) s) := by
  induction turns generalizing s with
  | nil => exact ⟨sound, rfl, fun place w found => ⟨w, found, Nat.le_refl _⟩⟩
  | cons place turns ih =>
    have first := step_advances sound place
    have rest := ih first.sound
    refine ⟨rest.sound, rest.candidates_eq.trans first.candidates_eq, fun other w' found => ?_⟩
    obtain ⟨v, midway, fewer⟩ := rest.left_le other w' found
    obtain ⟨w, start, less⟩ := first.left_le other v midway
    refine ⟨w, start, ?_⟩
    have both : (place :: turns).count other = [place].count other + turns.count other := by
      rw [← List.singleton_append, List.count_append]
    omega

theorem start_sound (q : Query) (expired : Deadline) (order : List (List OsString)) :
    q.Sound expired (q.start order) where
  fits := by simp [start, Fits]
  scanned_eq := by
    have none : counts expired ∘ (⟨·, .waiting⟩) = fun _ => false := rfl
    simp [start, none]
  timedOut_eq := by simp [start, late]
  reported_perm := by simp [start, reportOf]
  keeps := by
    refine ⟨by simp [start], fun index kept found => ?_⟩
    obtain ⟨_, _, unfilled⟩ := List.mem_map.mp (List.mem_of_getElem? found)
    cases unfilled

/-- Each worker has its five turns at the latest when the turns of a schedule are over. -/
theorem actionBound_le_count {count place : Nat} (inside : place < count) :
    actionBound ≤ ((List.range count).flatMap (List.replicate actionBound)).count place := by
  rw [← List.replicate_sublist_iff]
  rw [List.flatMap_def]
  exact List.sublist_flatten_of_mem (List.mem_map_of_mem (List.mem_range.mpr inside))

/-- At the end of a search, all workers are done. -/
structure Finished (q : Query) (expired : Deadline) (order : List (List OsString)) (s : Search) :
    Prop where
  sound : q.Sound expired s
  workers_eq : s.workers.toList = order.map fun c => ⟨c, .done (q.reports expired c)⟩

theorem run_finished (q : Query) (expired : Deadline) (schedule : Schedule)
    (candidates : List (List OsString)) :
    q.Finished expired (schedule.order candidates) (q.run expired schedule candidates) := by
  rw [run]
  generalize schedule.order candidates = order
  have advances := turns_advance (start_sound q expired order)
    (schedule.turns ++ (List.range order.length).flatMap (List.replicate actionBound))
  generalize (schedule.turns ++ _).foldl (q.step expired) (q.start order) = s at advances ⊢
  have done : ∀ w ∈ s.workers.toList, w.stage = .done (q.reports expired w.candidate) := by
    intro w member
    obtain ⟨place, here⟩ := List.mem_iff_getElem?.mp member
    rw [Array.getElem?_toList] at here
    obtain ⟨v, started, left⟩ := advances.left_le place w here
    have inside : place < order.length := by
      have := (Array.getElem?_eq_some_iff.mp started).1
      simpa [start] using this
    -- The turns behind those of the schedule alone are enough for all the steps that are left.
    have turns := actionBound_le_count inside
    have atMost : v.stage.left ≤ actionBound := by
      cases v.stage <;> simp [Stage.left, actionBound]
    rw [List.count_append] at left
    have none : w.stage.left = 0 := by omega
    have fits := advances.sound.fits w member
    cases stage : w.stage with
    | done dependent =>
      rw [Fits, stage] at fits
      rw [fits]
    | _ => simp [stage, Stage.left] at none
  refine ⟨advances.sound, ?_⟩
  have ordered : s.workers.toList.map (·.candidate) = order := by
    rw [advances.candidates_eq]
    simp [start, Function.comp_def]
  rw [← ordered, List.map_map]
  refine (List.map_id _).symm.trans (List.map_congr_left fun w member => ?_)
  simp [← done w member]

namespace Finished

variable {order : List (List OsString)} {s : Search}

theorem scanned_eq (finished : q.Finished expired order s) :
    s.shared.scanned = (order.filter (inTime expired)).length := by
  rw [finished.sound.scanned_eq, finished.workers_eq, List.countP_map,
    ← List.countP_eq_length_filter]
  rfl

theorem timedOut_eq (finished : q.Finished expired order s) :
    s.shared.timedOut = !order.all (inTime expired) := by
  rw [finished.sound.timedOut_eq, finished.workers_eq, List.any_map, List.not_all_eq_any_not]
  rfl

theorem found_eq (finished : q.Finished expired order s) :
    s.found = order.filter (q.reports expired) := by
  rw [Search.found, finished.workers_eq, List.filter_map, List.map_map]
  simp [Function.comp_def]

theorem reported_perm (finished : q.Finished expired order s) :
    s.shared.reported.Perm ((order.filter (q.reports expired)).map Path.ofComponents) := by
  refine finished.sound.reported_perm.trans (.of_eq ?_)
  rw [finished.workers_eq, List.flatMap_map]
  clear finished
  induction order with
  | nil => rfl
  | cons c order ih =>
    rw [List.flatMap_cons, ih]
    cases dependent : q.reports expired c <;> simp [dependent, reportOf]

end Finished

/-- What comes of a search, in whatever order the candidates are taken and the workers take their
steps. -/
theorem outcome_run (q : Query) (expired : Deadline) (schedule : Schedule)
    (candidates : List (List OsString)) :
    (q.run expired schedule candidates).outcome =
      { files :=
          (Path.ascending (candidates.filter (q.reports expired))).map Path.ofComponents
        scanned := (candidates.filter (inTime expired)).length
        complete := candidates.all (inTime expired) } := by
  have finished := run_finished q expired schedule candidates
  have permuted := schedule.permutes candidates
  -- What is put in order, counted or tested for all depends on the members alone.
  have files : Path.ascending ((schedule.order candidates).filter (q.reports expired)) =
      Path.ascending (candidates.filter (q.reports expired)) :=
    Path.ascending_congr fun c => (permuted.filter _).mem_iff
  rw [Search.outcome, finished.scanned_eq, finished.timedOut_eq, finished.found_eq, files,
    (permuted.filter _).length_eq, permuted.all_eq, Bool.not_not]

end Query

end Ripple
