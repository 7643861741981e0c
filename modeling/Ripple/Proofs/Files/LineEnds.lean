import Mathlib.Data.Option.Basic
import Ripple.Proofs.Ascending
import Ripple.Proofs.Files.Following
import Ripple.Proofs.Files.Walking
import Ripple.Proofs.Text.Encoding
import Ripple.Proofs.Text.LineEnds

/-!
Trees in which some files have a carriage return put in front of each line feed. A line feed is a
byte of its own wherever it stands, so that bytes are a text in both trees or in neither. Paths lead
to the same places, ignore files say the same, and a walk lists the same files, save for those that
grow beyond the greatest size.
-/

namespace Ripple

open Ripple.Path Node

namespace Text

/-- Bytes with a carriage return in front of each line feed. -/
def crlfBytes (bs : List UInt8) : List UInt8 :=
  bs.flatMap fun b => if b = 10 then [13, 10] else [b]

theorem crlfBytes_append (u v : List UInt8) : crlfBytes (u ++ v) = crlfBytes u ++ crlfBytes v :=
  List.flatMap_append

theorem crlfBytes_feed (bs : List UInt8) : crlfBytes (10 :: bs) = 13 :: 10 :: crlfBytes bs := rfl

theorem crlfBytes_cons {b : UInt8} (other : b ≠ 10) (bs : List UInt8) :
    crlfBytes (b :: bs) = b :: crlfBytes bs := by
  simp [crlfBytes, other]

theorem crlfBytes_eq_self {bs : List UInt8} (single : 10 ∉ bs) : crlfBytes bs = bs := by
  induction bs with
  | nil => rfl
  | cons b bs ih =>
    simp only [List.mem_cons, not_or] at single
    rw [crlfBytes_cons (Ne.symm single.1), ih single.2]

theorem filter_crlfBytes {bs : List UInt8} (plain : 13 ∉ bs) :
    (crlfBytes bs).filter (· ≠ 13) = bs := by
  induction bs with
  | nil => rfl
  | cons b bs ih =>
    simp only [List.mem_cons, not_or] at plain
    by_cases feed : b = 10
    · subst feed
      rw [crlfBytes_feed, List.filter_cons_of_neg (by decide), List.filter_cons_of_pos (by decide),
        ih plain.2]
    · rw [crlfBytes_cons feed, List.filter_cons_of_pos (by simpa using Ne.symm plain.1), ih plain.2]

theorem bytes_crlf (cs : List Char) : bytes (crlf cs) = crlfBytes (bytes cs) := by
  induction cs with
  | nil => rfl
  | cons c cs ih =>
    rw [bytes_cons, crlfBytes_append, ← ih]
    by_cases feed : c = '\n'
    · subst feed
      rfl
    · have single : 10 ∉ String.utf8EncodeChar c := fun member => feed (feed_of_mem_encode member)
      rw [crlf_cons feed, bytes_cons, crlfBytes_eq_self single]

theorem filter_bytes (cs : List Char) :
    (bytes cs).filter (· ≠ 13) = bytes (cs.filter (· ≠ '\r')) := by
  induction cs with
  | nil => rfl
  | cons c cs ih =>
    rw [bytes_cons, List.filter_append, ih]
    by_cases carriage : c = '\r'
    · subst carriage
      rw [List.filter_cons_of_neg (by decide)]
      rfl
    · rw [List.filter_cons_of_pos (by simpa using carriage), bytes_cons, List.filter_eq_self.mpr]
      intro b member
      have other : b ≠ 13 := by
        rintro rfl
        exact carriage (carriage_of_mem_encode member)
      simpa using other

/-- The content of a file with a carriage return in front of each line feed. -/
def crlfContent (content : ByteArray) : ByteArray := ⟨(crlfBytes content.toList).toArray⟩

theorem toList_crlfContent (content : ByteArray) :
    (crlfContent content).toList = crlfBytes content.toList := toList_eq_data _

theorem eq_toUTF8_iff {content : ByteArray} {source : String} :
    content = source.toUTF8 ↔ content.toList = bytes source.toList := by
  rw [← toList_toUTF8, toList_eq_data, toList_eq_data, Array.toList_inj]
  exact ByteArray.ext_iff

theorem fromUTF8?_eq_some_iff {content : ByteArray} {source : String} :
    String.fromUTF8? content = some source ↔ content = source.toUTF8 := by
  rw [← Files.decode_eq_ok_iff, Files.decode]
  cases String.fromUTF8? content <;> simp

theorem crlfContent_toUTF8 (source : String) :
    crlfContent source.toUTF8 = (crlfSource source).toUTF8 := by
  rw [eq_toUTF8_iff, toList_crlfContent, toList_toUTF8, toList_crlfSource, bytes_crlf]

/-- The line ends of bytes that are a text are those of the text, and bytes that are none do not
become one. -/
theorem fromUTF8?_crlfContent {content : ByteArray} (plain : 13 ∉ content.toList) :
    String.fromUTF8? (crlfContent content) = (String.fromUTF8? content).map crlfSource := by
  cases read : String.fromUTF8? content with
  | some source =>
    rw [Option.map_some, fromUTF8?_eq_some_iff, fromUTF8?_eq_some_iff.mp read, crlfContent_toUTF8]
  | none =>
    rw [Option.map_none, Option.eq_none_iff_forall_ne_some]
    intro source again
    have same := eq_toUTF8_iff.mp (fromUTF8?_eq_some_iff.mp again)
    -- Without its carriage returns the text would be that of the first bytes.
    have first : content = (String.ofList (source.toList.filter (· ≠ '\r'))).toUTF8 := by
      rw [eq_toUTF8_iff, String.toList_ofList, ← filter_bytes, ← same, toList_crlfContent,
        filter_crlfBytes plain]
    rw [fromUTF8?_eq_some_iff.mpr first] at read
    cases read

theorem carriage_not_mem {content : ByteArray} {source : String} (plain : 13 ∉ content.toList)
    (read : String.fromUTF8? content = some source) : '\r' ∉ source.toList := by
  intro member
  rw [eq_toUTF8_iff.mp (fromUTF8?_eq_some_iff.mp read)] at plain
  exact plain (List.mem_flatMap.mpr ⟨'\r', member, by decide⟩)

end Text

namespace IgnoreRule

open Text

/-- Bytes that are cut behind each line feed. -/
def bytePieces (bs : List UInt8) : List (List UInt8) :=
  bs.foldr (fun b pieces =>
    if b = 10 then [b] :: pieces
    else match pieces with
      | piece :: rest => (b :: piece) :: rest
      | [] => [[b]]) []

theorem bytePieces_cons (b : UInt8) (bs : List UInt8) : bytePieces (b :: bs) =
    if b = 10 then [b] :: bytePieces bs
    else match bytePieces bs with
      | piece :: rest => (b :: piece) :: rest
      | [] => [[b]] := rfl

theorem bytePieces_crlf (bs : List UInt8) :
    bytePieces (crlfBytes bs) = (bytePieces bs).map crlfBytes := by
  induction bs with
  | nil => rfl
  | cons b bs ih =>
    by_cases feed : b = 10
    · subst feed
      rw [crlfBytes_feed, bytePieces_cons, bytePieces_cons, bytePieces_cons, ih]
      rfl
    · rw [crlfBytes_cons feed, bytePieces_cons, if_neg feed, bytePieces_cons, if_neg feed, ih]
      cases bytePieces bs with
      | nil => simp [crlfBytes, feed]
      | cons piece rest => simp [crlfBytes_cons feed]

/-- A piece is made of the bytes, and a line feed is the last of them only. -/
theorem bytePieces_spec {bs piece : List UInt8} (listed : piece ∈ bytePieces bs) :
    piece ≠ [] ∧ 10 ∉ piece.dropLast ∧ piece ⊆ bs := by
  induction bs generalizing piece with
  | nil => cases listed
  | cons b bs ih =>
    have later : piece ∈ bytePieces bs → piece ≠ [] ∧ 10 ∉ piece.dropLast ∧ piece ⊆ b :: bs := by
      intro listed
      obtain ⟨some, single, within⟩ := ih listed
      exact ⟨some, single, fun x member => List.mem_cons_of_mem _ (within member)⟩
    rw [bytePieces_cons] at listed
    split at listed
    next feed =>
      rcases List.mem_cons.mp listed with rfl | listed
      · simp
      · exact later listed
    -- A byte other than the line feed is put in front of the first piece.
    next other =>
      cases found : bytePieces bs with
      | nil =>
        rw [found] at listed
        simp [List.mem_singleton.mp listed]
      | cons first rest =>
        simp only [found] at listed ih later
        rcases List.mem_cons.mp listed with rfl | listed
        · obtain ⟨some, single, within⟩ := ih List.mem_cons_self
          refine ⟨List.cons_ne_nil _ _, ?_, List.cons_subset_cons _ within⟩
          rw [List.dropLast_cons_of_ne_nil some, List.mem_cons, not_or]
          exact ⟨Ne.symm other, single⟩
        · exact later (List.mem_cons_of_mem _ listed)

/-- The line that a piece is the text of, if it is one. -/
def lineOf? (content : ByteArray) : Option (List Char) :=
  (String.fromUTF8? content).map fun text => stripLineEnd text.toList

theorem lineOf?_crlfContent {content : ByteArray} (plain : 13 ∉ content.toList)
    (single : 10 ∉ content.toList.dropLast) : lineOf? (crlfContent content) = lineOf? content := by
  rw [lineOf?, lineOf?, fromUTF8?_crlfContent plain, Option.map_map]
  cases read : String.fromUTF8? content with
  | none => rw [Option.map_none, Option.map_none]
  | some source =>
    have carriage := carriage_not_mem plain read
    rw [eq_toUTF8_iff.mp (fromUTF8?_eq_some_iff.mp read)] at single
    rw [Option.map_some, Option.map_some, Function.comp_apply, toList_crlfSource]
    -- A line feed can only be the last character, so the piece is a single line.
    rcases List.eq_nil_or_concat' source.toList with empty | ⟨body, c, shape⟩
    · rw [empty]
      rfl
    · rw [shape] at carriage single ⊢
      have feed : '\n' ∉ body := by
        intro member
        apply single
        rw [bytes_append, bytes_cons, bytes_nil, List.append_nil,
          List.dropLast_append_of_ne_nil (List.ne_nil_of_length_pos (by simp [Char.utf8Size_pos]))]
        exact List.mem_append_left _ (List.mem_flatMap.mpr ⟨'\n', member, by decide⟩)
      have cut : Cut [body ++ [c]] := by
        by_cases ends : c = '\n'
        · subst ends
          exact .cons feed .nil
        · refine .last (by simp) ?_
          rw [List.mem_append, List.mem_singleton, not_or]
          exact ⟨feed, Ne.symm ends⟩
      rw [stripLineEnd_crlf cut List.mem_cons_self carriage]

/-- The lines up to the first that is no text are told by the lines of the pieces. -/
theorem lines_congr {pieces pieces' : List ByteArray}
    (same : pieces'.map lineOf? = pieces.map lineOf?) :
    ((pieces'.map String.fromUTF8?).takeWhile (·.isSome)).map
        (fun t => stripLineEnd (t.getD "").toList) =
      ((pieces.map String.fromUTF8?).takeWhile (·.isSome)).map
        (fun t => stripLineEnd (t.getD "").toList) := by
  induction pieces generalizing pieces' with
  | nil =>
    rw [List.map_eq_nil_iff.mp same]
  | cons piece pieces ih =>
    obtain ⟨piece', pieces', rfl⟩ : ∃ first rest, pieces' = first :: rest := by
      cases pieces' with
      | nil => cases same
      | cons first rest => exact ⟨first, rest, rfl⟩
    obtain ⟨first, others⟩ := List.cons.inj same
    have further := ih others
    rw [lineOf?, lineOf?] at first
    -- A piece that is no text ends the lines on both sides.
    cases was : String.fromUTF8? piece with
    | none =>
      rw [was, Option.map_none, Option.map_eq_none_iff] at first
      simp [was, first]
    | some text =>
      rw [was, Option.map_some] at first
      obtain ⟨text', is, alike⟩ := Option.map_eq_some_iff.mp first
      simp [was, is, alike, further]

/-- An ignore file has the same rules in either form. -/
theorem ofBytes_crlfContent {content : ByteArray} (plain : 13 ∉ content.toList) :
    ofBytes (crlfContent content) = ofBytes content := by
  have pieces : byteLines (crlfContent content) = (byteLines content).map crlfContent := by
    change (bytePieces (crlfContent content).toList).map _ =
      ((bytePieces content.toList).map _).map _
    rw [toList_crlfContent, bytePieces_crlf, List.map_map, List.map_map]
    refine List.map_congr_left fun piece _ => ?_
    rw [Function.comp_apply, Function.comp_apply, crlfContent, toList_eq_data]
  -- A piece has its line feed at the end, so that only what is stripped anyway differs.
  have same : (byteLines (crlfContent content)).map lineOf? = (byteLines content).map lineOf? := by
    rw [pieces, List.map_map]
    refine List.map_congr_left fun line listed => ?_
    obtain ⟨piece, cut, rfl⟩ := List.mem_map.mp listed
    obtain ⟨_, single, within⟩ := bytePieces_spec cut
    refine lineOf?_crlfContent ?_ ?_
    · rw [toList_eq_data]
      exact fun member => plain (within member)
    · rwa [toList_eq_data]
  rw [ofBytes, ofBytes, linesOf, linesOf]
  simp only [lines_congr same]

end IgnoreRule

namespace Files

open Text

/-- What stands in the old tree stands in the new one, save that in some files without carriage
returns each line feed has got one. -/
structure Converts (old new : Files) : Prop where
  workDir : new.workDir = old.workDir
  kinds : ∀ location, new.kindAt? location = old.kindAt? location ∨
    ∃ content, 13 ∉ content.toList ∧ old.kindAt? location = some (.file content) ∧
      new.kindAt? location = some (.file (crlfContent content))

/-- A file is within a limit in both trees or in neither. -/
def SameWithin (limit : Nat) (old new : Files) : Prop :=
  ∀ location content content', old.kindAt? location = some (.file content) →
    new.kindAt? location = some (.file content') → (content'.size ≤ limit ↔ content.size ≤ limit)

/-- Reading gives the same, or a text in which each line feed has got a carriage return. -/
def Rereads (was is : Except AccessError String) : Prop :=
  is = was ∨ ∃ source, '\r' ∉ source.toList ∧ was = .ok source ∧ is = .ok (crlfSource source)

theorem decode_crlfContent {content : ByteArray} (plain : 13 ∉ content.toList) :
    Rereads (decode content) (decode (crlfContent content)) := by
  rw [decode, decode, fromUTF8?_crlfContent plain]
  cases read : String.fromUTF8? content with
  | none => exact .inl rfl
  | some source => exact .inr ⟨source, carriage_not_mem plain read, rfl, rfl⟩

/-- Steps that are admitted in one tree are admitted in another that has the same directories and
the same ignore files. -/
theorem Admitted.congr {old new : Files} {f : WalkFilter} {root here rest : List OsString}
    (dirs : ∀ location, (new.kindAt? location).map (fun kind => decide (kind = .dir)) =
      (old.kindAt? location).map fun kind => decide (kind = .dir))
    (scopes : ∀ here, new.scopesOf f root here = old.scopesOf f root here)
    (admitted : old.Admitted f root here rest) : new.Admitted f root here rest := by
  induction rest generalizing here with
  | nil => trivial
  | cons name rest ih =>
    refine ⟨fun node' is => ?_, ih admitted.2⟩
    have same := dirs (root ++ (here ++ [name]))
    rw [kindAt?, is, Option.map_some, Option.map_some, eq_comm, Option.map_eq_some_iff] at same
    obtain ⟨_, found, alike⟩ := same
    obtain ⟨node, was, rfl⟩ := Option.map_eq_some_iff.mp found
    rw [scopes, WalkFilter.admits_congr (decide_eq_decide.mp alike).symm]
    exact admitted.1 node was

namespace Converts

variable {old new : Files}

theorem kindAt?_eq_iff (converts : Converts old new) {location : List OsString} {kind : Kind}
    (other : ∀ content, kind ≠ .file content) :
    new.kindAt? location = some kind ↔ old.kindAt? location = some kind := by
  rcases converts.kinds location with same | ⟨content, _, was, is⟩
  · rw [same]
  · simp only [was, is, Option.some.injEq]
    constructor
    all_goals
      rintro rfl
      exact absurd rfl (other _)

theorem kindAt?_eq_none_iff (converts : Converts old new) {location : List OsString} :
    new.kindAt? location = none ↔ old.kindAt? location = none := by
  rcases converts.kinds location with same | ⟨content, _, was, is⟩
  · rw [same]
  · simp [was, is]

theorem enters (converts : Converts old new) {here next : List OsString} {step : OsString}
    (enters : old.Enters here step next) : new.Enters here step next := by
  cases enters with
  | stay => exact .stay
  | up => exact .up
  | down asks entry solid =>
    rcases converts.kinds (here ++ [step]) with same | ⟨content, _, _, is⟩
    · exact .down asks (same.trans entry) solid
    · exact .down asks is (by simp)

/-- Steps lead to the same place, or fail for the same reason. -/
theorem follow_eq (converts : Converts old new)
    (jump : List OsString → List OsString → Except AccessError (List OsString))
    (here todo : List OsString) : follow new.top jump here todo = follow old.top jump here todo := by
  induction todo generalizing here with
  | nil => rw [follow, follow]
  | cons step rest ih =>
    have dir : new.kindAt? here = some .dir ↔ old.kindAt? here = some .dir :=
      converts.kindAt?_eq_iff (by simp)
    by_cases isDir : old.kindAt? here = some .dir
    · rcases enters_or_asks old here step with
        ⟨next, enters⟩ | long | ⟨asks, ⟨target, linked⟩ | missing⟩
      · rw [follow_enters isDir enters, follow_enters (dir.mpr isDir) (converts.enters enters), ih]
      · rw [follow_tooLong isDir long, follow_tooLong (dir.mpr isDir) long]
      · rw [follow_jumps isDir asks linked, follow_jumps (dir.mpr isDir) asks
          ((converts.kindAt?_eq_iff (by simp)).mpr linked)]
      · rw [follow_misses isDir asks missing, follow_misses (dir.mpr isDir) asks
          (converts.kindAt?_eq_none_iff.mpr missing)]
    · rw [follow_stuck isDir, follow_stuck fun isDir' => isDir (dir.mp isDir')]

theorem followLinks_eq (converts : Converts old new) (links : Nat) :
    followLinks new.top links = followLinks old.top links := by
  induction links with
  | zero =>
    funext here todo
    exact converts.follow_eq _ here todo
  | succ links ih =>
    funext here todo
    rw [followLinks, followLinks, ih]
    exact converts.follow_eq _ here todo

theorem locate_eq (converts : Converts old new) (path : OsString) :
    new.locate path = old.locate path := by
  rw [locate, locate, converts.workDir, converts.followLinks_eq]

theorem isDir_eq (converts : Converts old new) (path : OsString) :
    new.isDir path = old.isDir path := by
  cases leads : old.locate path with
  | error => rw [isDir, isDir, converts.locate_eq, leads]
  | ok location =>
    rw [Bool.eq_iff_iff, isDir_iff leads, isDir_iff ((converts.locate_eq path).trans leads)]
    exact converts.kindAt?_eq_iff (by simp)

/-- What can be read at a place is the same, or the text of a file that was converted. -/
theorem rereadsAt (converts : Converts old new) (location : List OsString) :
    Rereads (old.readAt location >>= decode) (new.readAt location >>= decode) := by
  rw [readAt_eq, readAt_eq]
  rcases converts.kinds location with same | ⟨content, plain, was, is⟩
  · rw [same]
    exact .inl rfl
  · rw [was, is]
    exact decode_crlfContent plain

theorem rereads (converts : Converts old new) (path : OsString) :
    Rereads (old.readText path) (new.readText path) := by
  rw [readText, readText, read, read, converts.locate_eq]
  cases old.locate path with
  | error => exact .inl rfl
  | ok location => exact converts.rereadsAt location

theorem ignoreRules_eq (converts : Converts old new) (location : List OsString) :
    new.ignoreRules location = old.ignoreRules location := by
  rw [ignoreRules, ignoreRules, read, read, converts.locate_eq]
  cases old.locate (pathOf (location ++ [ignoreFile])) with
  | error => rfl
  | ok reached =>
    simp only [bind, Except.bind, readAt_eq]
    rcases converts.kinds reached with same | ⟨content, plain, was, is⟩
    · rw [same]
    · simp only [was, is, IgnoreRule.ofBytes_crlfContent plain]

theorem scopesOf_eq (converts : Converts old new) (f : WalkFilter) (root here : List OsString) :
    new.scopesOf f root here = old.scopesOf f root here := by
  simp only [scopesOf, converts.ignoreRules_eq]

theorem admitted_iff (converts : Converts old new) {f : WalkFilter} {root here rest : List OsString} :
    new.Admitted f root here rest ↔ old.Admitted f root here rest := by
  have dirs : ∀ location, (new.kindAt? location).map (fun kind => decide (kind = .dir)) =
      (old.kindAt? location).map fun kind => decide (kind = .dir) := by
    intro location
    rcases converts.kinds location with same | ⟨content, _, was, is⟩
    · rw [same]
    · simp [was, is]
  exact ⟨.congr (fun location => (dirs location).symm)
      fun here => (converts.scopesOf_eq f root here).symm,
    .congr dirs (converts.scopesOf_eq f root)⟩

theorem accepted_iff (converts : Converts old new) {f : WalkFilter}
    (within : ∀ limit, f.maxFileSize = some limit → SameWithin limit old new)
    {root below : List OsString} : new.Accepted f root below ↔ old.Accepted f root below := by
  simp only [Accepted, ← kindAt?_eq_file]
  rcases converts.kinds (root ++ below) with same | ⟨content, _, was, is⟩
  · rw [same]
  · have sizes : f.acceptsSize (crlfContent content).size = f.acceptsSize content.size := by
      rw [WalkFilter.acceptsSize, WalkFilter.acceptsSize]
      cases limited : f.maxFileSize with
      | none => rfl
      | some limit => exact decide_eq_decide.mpr (within limit limited _ _ _ was is)
    simp [was, is, WalkFilter.acceptsFile, sizes]

/-- A walk lists the same files, if none of them crosses the greatest size. -/
theorem walk_eq (converts : Converts old new) (formed : old.top.WellFormed)
    (formed' : new.top.WellFormed) {f : WalkFilter}
    (within : ∀ limit, f.maxFileSize = some limit → SameWithin limit old new)
    (root : List OsString) : new.walk f root = old.walk f root := by
  refine Path.eq_of_ascends (walk_ascends formed') (walk_ascends formed) fun below => ?_
  rw [mem_walk_iff formed', mem_walk_iff formed, converts.accepted_iff within,
    converts.admitted_iff]

end Converts

end Files

end Ripple
