import Ripple.Language.Table

/-!
Lookups in a table after any history of registrations. The index of a language is its place in the
history, and a registration takes over what it lists; so a query is answered by the latest language
that lists the extension, however it is written.
-/

namespace Ripple

namespace Language

/-- A language lists an extension, in whatever case and behind whatever dots. -/
def Lists (l : Language) (ext : String) : Prop :=
  ∃ listed ∈ l.extensions, normalExtension listed = normalExtension ext

instance (l : Language) (ext : String) : Decidable (l.Lists ext) :=
  inferInstanceAs (Decidable (∃ listed ∈ l.extensions, _ = _))

theorem normalExtension_mem_iff {l : Language} {ext : String} :
    normalExtension ext ∈ l.extensions.map normalExtension ↔ l.Lists ext :=
  List.mem_map

end Language

namespace LanguageTable

/-- An index answers a query if the language at this place of a history is the latest that lists the
extension; there is no answer if no language does. -/
def Latest (history : List Language) (ext : String) : Option Nat → Prop
  | some i => (∃ l, history[i]? = some l ∧ l.Lists ext) ∧
      ∀ j l, history[j]? = some l → l.Lists ext → j ≤ i
  | none => ∀ l ∈ history, ¬ l.Lists ext

/-- A table stands at the end of a history of registrations. -/
structure Records (history : List Language) (t : LanguageTable) : Prop where
  languages : t.languages = history
  below : ∀ o ∈ t.owners, o.2 < history.length
  latest : ∀ ext, Latest history ext (t.indexOfExtension? ext)

/-- Dropping the entries of one key leaves those of another. -/
theorem lookup_filter_ne {ext key : String} (apart : key ≠ ext) (owners : List (String × Nat)) :
    (owners.filter fun o => o.1 != ext).lookup key = owners.lookup key := by
  induction owners with
  | nil => rfl
  | cons o owners ih =>
    rw [List.filter_cons]
    split
    next kept => rw [List.lookup_cons, List.lookup_cons, ih]
    next dropped =>
      have same : o.1 = ext := by simpa using dropped
      have skipped : (key == o.1) = false := by simpa [same] using apart
      rw [ih, List.lookup_cons, skipped]

theorem lookup_assign (index : Nat) (owners : List (String × Nat)) (ext key : String) :
    (assign index owners ext).lookup key = if key = ext then some index else owners.lookup key := by
  rw [assign, List.lookup_cons]
  split
  next same => rw [if_pos (by simpa using same)]
  next other =>
    have apart : key ≠ ext := by simpa using other
    rw [if_neg apart, lookup_filter_ne apart]

theorem lookup_foldl_assign (index : Nat) (claimed : List String) (owners : List (String × Nat))
    (key : String) :
    (claimed.foldl (assign index) owners).lookup key =
      if key ∈ claimed then some index else owners.lookup key := by
  induction claimed generalizing owners with
  | nil => simp
  | cons ext claimed ih =>
    rw [List.foldl_cons, ih, lookup_assign]
    by_cases later : key ∈ claimed <;> by_cases here : key = ext <;> simp [later, here]

theorem mem_foldl_assign {index : Nat} {claimed : List String} {owners : List (String × Nat)}
    {o : String × Nat} (member : o ∈ claimed.foldl (assign index) owners) :
    o.2 = index ∨ o ∈ owners := by
  induction claimed generalizing owners with
  | nil => exact .inr member
  | cons ext claimed ih =>
    rcases ih member with new | old
    · exact .inl new
    · rcases List.mem_cons.mp old with rfl | kept
      · exact .inl rfl
      · exact .inr (List.mem_filter.mp kept).1

/-- A registration answers the queries for what it lists and leaves all others as they are. -/
theorem indexOfExtension?_register (t : LanguageTable) (l : Language) (ext : String) :
    (t.register l).indexOfExtension? ext =
      if l.Lists ext then some t.languages.length else t.indexOfExtension? ext := by
  rw [indexOfExtension?, register, lookup_foldl_assign]
  simp only [Language.normalExtension_mem_iff, indexOfExtension?]

theorem latest_concat_of_lists {history : List Language} {l : Language} {ext : String}
    (lists : l.Lists ext) : Latest (history ++ [l]) ext (some history.length) := by
  refine ⟨⟨l, by simp, lists⟩, fun j k found _ => ?_⟩
  have inside := (List.getElem?_eq_some_iff.mp found).1
  rw [List.length_append, List.length_singleton] at inside
  omega

theorem Latest.concat {history : List Language} {l : Language} {ext : String} {answer : Option Nat}
    (latest : Latest history ext answer) (other : ¬ l.Lists ext) :
    Latest (history ++ [l]) ext answer := by
  cases answer with
  | none =>
    intro k member
    rcases List.mem_append.mp member with earlier | last
    · exact latest k earlier
    · rwa [List.mem_singleton.mp last]
  | some i =>
    obtain ⟨⟨k, found, lists⟩, greatest⟩ := latest
    have inside := (List.getElem?_eq_some_iff.mp found).1
    refine ⟨⟨k, by rw [List.getElem?_append_left inside, found], lists⟩, fun j k' found' lists' => ?_⟩
    rcases Nat.lt_or_ge j history.length with before | behind
    · exact greatest j k' (by rwa [List.getElem?_append_left before] at found') lists'
    · -- Only the last language stands behind the history, and it does not list the extension.
      rw [List.getElem?_append_right behind] at found'
      have last := List.mem_of_getElem? found'
      rw [List.mem_singleton.mp last] at lists'
      exact absurd lists' other

namespace Records

variable {history : List Language} {t : LanguageTable}

theorem empty : Records [] empty where
  languages := rfl
  below := by simp [LanguageTable.empty]
  latest ext := by simp [LanguageTable.empty, indexOfExtension?, Latest]

theorem register (records : Records history t) (l : Language) :
    Records (history ++ [l]) (t.register l) where
  languages := by rw [LanguageTable.register, records.languages]
  below o member := by
    rw [List.length_append, List.length_singleton]
    rcases mem_foldl_assign member with new | old
    · rw [new, records.languages]
      exact Nat.lt_succ_self _
    · exact Nat.lt_succ_of_lt (records.below o old)
  latest ext := by
    rw [indexOfExtension?_register, records.languages]
    split
    next lists => exact latest_concat_of_lists lists
    next other => exact (records.latest ext).concat other

/-- Whatever is registered one after another, the table records it. -/
theorem foldl (records : Records history t) (languages : List Language) :
    Records (history ++ languages) (languages.foldl LanguageTable.register t) := by
  induction languages generalizing history t with
  | nil => rwa [List.append_nil]
  | cons l languages ih =>
    rw [List.append_cons]
    exact ih (records.register l)

theorem ofList (history : List Language) : Records history (ofList history) :=
  empty.foldl history

/-- A lookup that has an index has the language at this place. -/
theorem exists_getElem? (records : Records history t) {ext : String} {i : Nat}
    (found : t.indexOfExtension? ext = some i) :
    ∃ l, history[i]? = some l ∧ t.ofExtension? ext = some l := by
  have latest := records.latest ext
  rw [found] at latest
  obtain ⟨⟨l, here, _⟩, _⟩ := latest
  exact ⟨l, here, by rw [ofExtension?, found, Option.bind_some, records.languages, here]⟩

theorem index_lt (records : Records history t) {ext : String} {i : Nat}
    (found : t.indexOfExtension? ext = some i) : i < history.length := by
  obtain ⟨l, here, _⟩ := records.exists_getElem? found
  exact (List.getElem?_eq_some_iff.mp here).1

/-- The index of a new language is none that was given before. -/
theorem register_ne_iff (records : Records history t) (l : Language) (ext : String) :
    (t.register l).indexOfExtension? ext ≠ t.indexOfExtension? ext ↔ l.Lists ext := by
  rw [indexOfExtension?_register, records.languages]
  constructor
  · exact fun changed => Decidable.byContradiction fun other => changed (if_neg other)
  · intro lists same
    rw [if_pos lists] at same
    exact Nat.lt_irrefl _ (records.index_lt same.symm)

end Records

/-- After any history of registrations, all indices in the table are places of the history; a query
is answered by the latest language that lists the extension, and a lookup never goes beyond the
languages; a path is looked up by its extension; and a further registration changes the answers to
the queries for what it lists, and to no others. -/
theorem lookup_follows_registrations (history : List Language) :
    (ofList history).languages = history ∧
    (∀ o ∈ (ofList history).owners, o.2 < history.length) ∧
    (∀ ext, Latest history ext ((ofList history).indexOfExtension? ext) ∧
      ∀ i, (ofList history).indexOfExtension? ext = some i →
        ∃ l, history[i]? = some l ∧ (ofList history).ofExtension? ext = some l) ∧
    (∀ path, (ofList history).indexOfPath? path =
        (Path.textExtension? path).bind (ofList history).indexOfExtension? ∧
      (ofList history).ofPath? path =
        (Path.textExtension? path).bind (ofList history).ofExtension?) ∧
    ∀ l ext, ((ofList history).register l).indexOfExtension? ext ≠
      (ofList history).indexOfExtension? ext ↔ l.Lists ext := by
  have records := Records.ofList history
  refine ⟨records.languages, records.below, fun ext => ⟨records.latest ext, fun i found => ?_⟩,
    fun path => ⟨rfl, ?_⟩, records.register_ne_iff⟩
  · exact records.exists_getElem? found
  · rw [ofPath?, indexOfPath?, Option.bind_assoc]
    rfl

end LanguageTable

end Ripple
