import Ripple.Proofs.Language.Keywords

/-!
The export declarations of JavaScript and TypeScript, one on each line. Every form is found by one
rule and by no other one. It is found under the name behind its keywords, except that the keyword
`const` of a constant enumeration is taken for all of them, and the keyword `enum` for the name.
-/

namespace Ripple.Language.JavaScript

open Regex Language.Part Text ExportRule Slot

/-- `[A-Za-z_$][\w$]*` -/
def identifier : NameForm :=
  ⟨.unions [.range 'A' 'Z', .range 'a' 'z', .single '_', .single '$'], .unions [.word, .single '$'], 0⟩

def functionRule : ExportRule := ⟨functionPattern, .function, .exported⟩

def classRule : ExportRule := ⟨classPattern, .type, .exported⟩

def typeRule : ExportRule := ⟨typePattern, .type, .exported⟩

def constantRule : ExportRule := ⟨constantPattern, .constant, .exported⟩

def variableRule : ExportRule := ⟨variablePattern, .var, .exported⟩

def rules : List ExportRule := [functionRule, classRule, typeRule, constantRule, variableRule]

theorem exportRules_eq : javaScript.exportRules = some rules := rfl

def functionSlots : List Slot := [.word "export", .optional "default", .optional "async"]

def classSlots : List Slot := [.word "export", .optional "default", .optional "abstract", .word "class"]

def typeSlots : List Slot :=
  [.word "export", .optional "declare", .oneOf ["interface", "type", "enum"]]

def constantSlots : List Slot := [.word "export", .oneOf ["const", "let"]]

def variableSlots : List Slot := [.word "export", .word "var"]

/-- The keyword of a function, with the star of a generator. -/
def functionMark : List Regex :=
  letters "function" ++ [edge, many blank, maybe (.char '*'), many blank]

open Pattern

theorem functionRule_heads : functionRule.Heads
    (many blank :: (functionSlots.flatMap regexes ++ functionMark)) identifier [] :=
  heads_ofText (joined rfl rfl) (.inl rfl) rfl

theorem classRule_keyed : classRule.Keyed classSlots identifier [] where
  heads := heads_ofText (joined rfl rfl) (.inl rfl) rfl
  solid := by decide
  clear := by decide

theorem typeRule_keyed : typeRule.Keyed typeSlots identifier [] where
  heads := heads_ofText (joined rfl rfl) (.inl rfl) rfl
  solid := by decide
  clear := by decide

theorem constantRule_keyed : constantRule.Keyed constantSlots identifier [] where
  heads := heads_ofText rfl (.inl rfl) rfl
  solid := by decide
  clear := by decide

theorem variableRule_keyed : variableRule.Keyed variableSlots identifier [] where
  heads := heads_ofText rfl (.inl rfl) rfl
  solid := by decide
  clear := by decide

theorem rules_linewise : ∀ rule ∈ rules, rule.linewise = true := by
  simp only [rules, List.forall_mem_cons, List.not_mem_nil, false_implies, implies_true, and_true]
  exact ⟨functionRule_heads.linewise, classRule_keyed.heads.linewise, typeRule_keyed.heads.linewise,
    constantRule_keyed.heads.linewise, variableRule_keyed.heads.linewise⟩

/-- The forms of an export declaration. -/
inductive Form where
  /-- `export [default] [async] function[*]` -/
  | function (isDefault isAsync isGenerator : Bool)
  /-- `export [default] [abstract] class` -/
  | type (isDefault isAbstract : Bool)
  /-- `export [declare] interface` -/
  | interface (isDeclared : Bool)
  /-- `export [declare] type` -/
  | synonym (isDeclared : Bool)
  /-- `export [declare] enum` -/
  | enumeration (isDeclared : Bool)
  /-- `export const enum` -/
  | constantEnumeration
  /-- `export const` -/
  | constant
  /-- `export let` -/
  | binding
  /-- `export var` -/
  | var
  deriving DecidableEq

namespace Form

def all : List Form :=
  [.function false false false, .function false false true, .function false true false,
    .function false true true, .function true false false, .function true false true,
    .function true true false, .function true true true, .type false false, .type false true,
    .type true false, .type true true, .interface false, .interface true, .synonym false, .synonym true,
    .enumeration false, .enumeration true, .constantEnumeration, .constant, .binding, .var]

theorem mem_all (form : Form) : form ∈ all := by
  cases form with
  | function d a g => cases d <;> cases a <;> cases g <;> decide
  | type d a => cases d <;> cases a <;> decide
  | interface d | synonym d | enumeration d => cases d <;> decide
  | _ => decide

/-- A word that may be left out. -/
def given (present : Bool) (word : String) : List String := if present then [word] else []

def keywords : Form → List String
  | function d a g =>
    "export" :: (given d "default" ++ given a "async" ++ [if g then "function*" else "function"])
  | type d a => "export" :: (given d "default" ++ given a "abstract" ++ ["class"])
  | interface d => "export" :: (given d "declare" ++ ["interface"])
  | synonym d => "export" :: (given d "declare" ++ ["type"])
  | enumeration d => "export" :: (given d "declare" ++ ["enum"])
  | constantEnumeration => ["export", "const", "enum"]
  | constant => ["export", "const"]
  | binding => ["export", "let"]
  | var => ["export", "var"]

/-- The kind under which a form is found. -/
def kind : Form → SymbolKind
  | function .. => .function
  | type .. | interface _ | synonym _ | enumeration _ => .type
  | constantEnumeration | constant | binding => .constant
  | var => .var

def words (form : Form) : List (List Char) := form.keywords.map String.toList

/-- The words that are taken for keywords: of a constant enumeration, only those of a constant. -/
def lead (form : Form) : List (List Char) :=
  if form = .constantEnumeration then constant.words else form.words

def isFunction : Form → Bool
  | function .. => true
  | _ => false

/-- The star of a generator. -/
def star : Form → List Char
  | function _ _ true => ['*']
  | _ => []

def isClass : Form → Bool
  | type .. => true
  | _ => false

def isType : Form → Bool
  | interface _ | synonym _ | enumeration _ => true
  | _ => false

def isConstant : Form → Bool
  | constantEnumeration | constant | binding => true
  | _ => false

def isVariable : Form → Bool
  | var => true
  | _ => false

/-- Wherever the keyword of a function can follow a row of words, it is the last word of a function. -/
theorem function_of_row (form : Form) : ∀ row ∈ leading functionSlots form.lead,
    ∃ word ∈ (form.lead.drop row.length).head?, "function".toList <+: word →
      form.isFunction = true ∧ form.lead.drop row.length = ["function".toList ++ form.star] := by
  have checked : ∀ form ∈ all, ∀ row ∈ leading functionSlots form.lead,
      ∃ word ∈ (form.lead.drop row.length).head?, "function".toList <+: word →
        form.isFunction = true ∧ form.lead.drop row.length = ["function".toList ++ form.star] := by
    decide
  exact checked form (mem_all form)

theorem row_of_function {form : Form} (function : form.isFunction = true) :
    ∃ row ∈ rows functionSlots, form.lead = row ++ ["function".toList ++ form.star] := by
  have checked : ∀ form ∈ all, form.isFunction = true →
      ∃ row ∈ rows functionSlots, form.lead = row ++ ["function".toList ++ form.star] := by
    decide
  exact checked form (mem_all form) function

theorem covers_function (form : Form) : covers functionSlots form.lead = true := by
  have checked : ∀ form ∈ all, covers functionSlots form.lead = true := by decide
  exact checked form (mem_all form)

theorem star_cases (form : Form) : form.star = [] ∨ form.star = ['*'] := by
  have checked : ∀ form ∈ all, form.star = [] ∨ form.star = ['*'] := by decide
  exact checked form (mem_all form)

/-- What a form has behind its first word begins no list of names. -/
theorem second_word (form : Form) : ∃ word more, form.lead = "export".toList :: word :: more ∧
    word.head? ≠ some '\x7b' ∧ ("type".toList <+: word → word = "type".toList ∧ more = []) := by
  have checked : ∀ form ∈ all, ∃ word ∈ form.lead[1]?,
      form.lead = "export".toList :: word :: form.lead.drop 2 ∧ word.head? ≠ some '\x7b' ∧
        ("type".toList <+: word → word = "type".toList ∧ form.lead.drop 2 = []) := by
    decide
  obtain ⟨word, _, rest⟩ := checked form (mem_all form)
  exact ⟨word, _, rest⟩

/-- Whether a rule with such places goes with some of the forms and with no other ones. -/
def fits (slots : List Slot) (own : Form → Bool) : Bool :=
  all.all fun form => covers slots form.lead &&
    leading slots form.lead = if own form then [form.lead] else []

theorem fits_apply {slots : List Slot} {own : Form → Bool} (fitting : fits slots own = true)
    (form : Form) : covers slots form.lead = true ∧
      leading slots form.lead = if own form then [form.lead] else [] := by
  simpa using List.all_eq_true.mp fitting form (mem_all form)

end Form

/-- A line with an export declaration: blanks, keywords with blanks behind each, a name, and what
does not go on with the name. -/
structure Line where
  form : Form
  (pad head name rest : List Char)
  indented : Blanks pad
  words : Spaced form.words head
  named : identifier.Names name
  ends : identifier.Ends rest
  single : '\n' ∉ rest

namespace Line

def chars (line : Line) : List Char := line.pad ++ (line.head ++ (line.name ++ line.rest))

/-- The name under which a line is found. -/
def foundName (line : Line) : List Char :=
  if line.form = .constantEnumeration then "enum".toList else line.name

/-- The symbol of a line that stands at a number of lines. -/
def symbol (line : Line) (number : Nat) : Export :=
  ⟨String.ofList line.foundName, line.form.kind, number, true⟩

/-- A line is made of the words that are taken for keywords, of the name that is found, and of what
does not go on with that name. -/
theorem exists_split (line : Line) : ∃ head rest, Spaced line.form.lead head ∧
    identifier.Names line.foundName ∧ identifier.Ends rest ∧
    line.chars = line.pad ++ (head ++ (line.foundName ++ rest)) := by
  by_cases shape : line.form = .constantEnumeration
  · -- The last of the keywords is found as the name.
    have cut : line.form.words = Form.constant.words ++ ["enum".toList] := by
      rw [shape]
      rfl
    obtain ⟨first, second, split, spaced, last⟩ := (cut ▸ line.words).split
    obtain ⟨_, gap, some, blanks, rfl⟩ := spaced_singleton.mp last
    have named : identifier.Names "enum".toList :=
      ⟨by decide, Nat.zero_le _, List.all_eq_true.mp (by decide)⟩
    have ends : identifier.Ends (gap ++ (line.name ++ line.rest)) := by
      intro c next
      rw [List.head?_append_of_ne_nil _ some] at next
      rcases blank_mem_iff.mp (blanks c (List.mem_of_mem_head? next)) with rfl | rfl <;> decide
    refine ⟨first, gap ++ (line.name ++ line.rest), ?_, ?_, ends, ?_⟩
    · simpa [Form.lead, shape] using spaced
    · simpa [foundName, shape] using named
    · simp [chars, foundName, shape, split]
  · exact ⟨line.head, line.rest, by simpa [Form.lead, shape] using line.words,
      by simpa [foundName, shape] using line.named, line.ends, by simp [chars, foundName, shape]⟩

theorem plain (line : Line) : '\n' ∉ line.chars := by
  have keywords : Form.all.all (fun form => form.words.all fun word => !word.contains '\n') = true := by
    decide
  have heads : '\n' ∉ line.head := by
    refine line.words.not_mem (fun word listed => ?_) (by decide)
    have here := List.all_eq_true.mp keywords line.form line.form.mem_all
    simpa using List.all_eq_true.mp here word listed
  have pads : '\n' ∉ line.pad := line.indented.not_mem (by decide)
  have names : '\n' ∉ line.name := line.named.not_mem (by decide) (by decide)
  simp [chars, pads, heads, names, line.single]

end Line

/-- A rule finds the forms that go with its words. -/
theorem hits_of_line {rule : ExportRule} {slots : List Slot} (keyed : rule.Keyed slots identifier [])
    {own : Form → Bool} (fitting : Form.fits slots own = true) (line : Line) {text : List Char}
    (isLine : IsLine line.chars text) : rule.hits text (.ofText text) =
      if own line.form then
        [⟨String.ofList line.foundName, rule.kind, 1, rule.visibility.isPublic line.foundName none⟩]
      else [] := by
  obtain ⟨covers, leading⟩ := Form.fits_apply fitting line.form
  obtain ⟨head, rest, spaced, named, ends, shape⟩ := line.exists_split
  rw [shape] at isLine
  have goes := keyed.goes_of_names named rest
  split at leading
  next own =>
    rw [if_pos own]
    exact keyed.hits_of_words covers line.indented spaced goes isLine leading rfl named ends
      fun _ o _ => ⟨o, rfl⟩
  next other =>
    rw [if_neg other]
    exact keyed.hits_of_foreign covers line.indented spaced goes isLine leading

theorem takes_functionMark {o a : Point} (takes : (seqs functionMark).Takes o a) :
    ∃ gap star gap', Blanks gap ∧ (star = [] ∨ star = ['*']) ∧ Blanks gap' ∧
      o.rest = "function".toList ++ (gap ++ (star ++ (gap' ++ a.rest))) := by
  obtain ⟨b, word, mark⟩ := takes_seqs_append.mp takes
  obtain ⟨_, ⟨_, rfl⟩, c, before, d, starred, behind⟩ := mark
  obtain ⟨gap, _, blanks, reads⟩ := takes_run.mp before
  obtain ⟨gap', _, blanks', reads'⟩ := takes_run.mp behind
  have word := (takes_chars.mp word).rest_eq
  rcases takes_optional.mp starred with rfl | star
  · exact ⟨gap, [], gap', blanks, .inl rfl, blanks', by rw [word, reads.rest_eq, reads'.rest_eq]; rfl⟩
  · refine ⟨gap, ['*'], gap', blanks, .inr rfl, blanks', ?_⟩
    rw [word, reads.rest_eq, Point.Reads.rest_eq star, reads'.rest_eq]

theorem functionMark_takes {text u star gap rest : List Char} {o : Point}
    (reads : (Point.start text).Reads u o) (starred : star = [] ∨ star = ['*']) (some : gap ≠ [])
    (blanks : Blanks gap) (shape : o.rest = "function".toList ++ (star ++ (gap ++ rest))) :
    ∃ a, (seqs functionMark).Takes o a ∧ a.rest = rest := by
  obtain ⟨b, word, rest₁⟩ := Point.exists_reads shape
  obtain ⟨c, readsStar, rest₂⟩ := Point.exists_reads rest₁
  obtain ⟨a, readsGap, rest₃⟩ := Point.exists_reads rest₂
  refine ⟨a, takes_seqs_append.mpr ⟨b, takes_chars.mpr word, ?_⟩, rest₃⟩
  have ends : IsEdge (u ++ "function".toList) b.rest := by
    have last : u ++ "function".toList = (u ++ "functio".toList) ++ ['n'] := by simp
    rw [last, isEdge_concat_iff (by decide), rest₁]
    intro d next
    rcases starred with rfl | rfl
    · rw [List.nil_append, List.head?_append_of_ne_nil _ some] at next
      rcases blank_mem_iff.mp (blanks d (List.mem_of_mem_head? next)) with rfl | rfl <;> decide
    · obtain rfl : '*' = d := by simpa using next
      decide
  have stars : (maybe (.char '*')).Takes b c := by
    rcases starred with rfl | rfl
    · exact takes_optional.mpr (.inl readsStar)
    · exact takes_optional.mpr (.inr readsStar)
  -- All blanks are left to the second run.
  exact ⟨b, (takes_edge_iff (reads.trans word)).mpr ⟨rfl, ends⟩,
    b, takes_run.mpr ⟨[], Nat.zero_le _, by simp, rfl⟩, c, stars,
    takes_run.mpr ⟨gap, Nat.zero_le _, blanks, readsGap⟩⟩

theorem goes_of_first {rest : List Char} (first : ∀ c ∈ rest.head?, identifier.first.mem c = true) :
    Goes rest :=
  fun c here => identifier.solid_first (by decide) (first c here)

/-- No name begins with a star. -/
theorem not_star {rest behind : List Char} (first : ∀ c ∈ rest.head?, identifier.first.mem c = true) :
    rest ≠ '*' :: behind := by
  rintro rfl
  exact absurd (first '*' rfl) (by decide)

/-- The star of a generator and the blanks around it are read in one way only. -/
theorem rest_of_star {gap₁ star₁ gap₂ rest₁ star gap rest : List Char}
    (blanks₁ : Blanks gap₁) (starred₁ : star₁ = [] ∨ star₁ = ['*'])
    (blanks₂ : Blanks gap₂) (starred : star = [] ∨ star = ['*']) (blanks : Blanks gap)
    (first₁ : ∀ c ∈ rest₁.head?, identifier.first.mem c = true)
    (first : ∀ c ∈ rest.head?, identifier.first.mem c = true)
    (same : gap₁ ++ (star₁ ++ (gap₂ ++ rest₁)) = star ++ (gap ++ rest)) : rest₁ = rest := by
  have both : Blanks (gap₁ ++ gap₂) := blanks₁.append blanks₂
  have goes : ∀ behind, Goes ('*' :: behind) := by
    intro behind c first
    obtain rfl : '*' = c := by simpa using first
    decide
  -- A star that stands on one side only would be a blank or begin a name on the other side.
  rcases starred₁ with rfl | rfl
  · rw [List.nil_append, ← List.append_assoc] at same
    rcases starred with rfl | rfl
    · exact (blanks_unique both blanks (goes_of_first first₁) (goes_of_first first) same).2
    · exact absurd (blanks_unique both .nil (goes_of_first first₁) (goes _) same).2 (not_star first₁)
  · rcases starred with rfl | rfl
    · exact absurd (blanks_unique blanks₁ blanks (goes _) (goes_of_first first) same).2.symm
        (not_star first)
    · have tails := List.cons.inj (blanks_unique blanks₁ .nil (goes _) (goes _) same).2
      exact (blanks_unique blanks₂ blanks (goes_of_first first₁) (goes_of_first first) tails.2).2

theorem functionSlots_solid : ∀ slot ∈ functionSlots, slot.solid = true := by decide

theorem function_solid : "function".toList ≠ [] ∧ ∀ c ∈ "function".toList, blank.mem c = false :=
  isSolid_iff.mp (by decide)

/-- A name that is found behind the keyword of a function is the name of a function. -/
theorem name_of_function (line : Line) {head rest text name behind : List Char} {a : Point}
    (spaced : Spaced line.form.lead head) (named : identifier.Names line.foundName)
    (shape : text = line.pad ++ (head ++ (line.foundName ++ rest)))
    (takes : (seqs (many blank :: (functionSlots.flatMap regexes ++ functionMark))).Takes (.start text) a)
    (named' : identifier.Names name) (found : a.rest = name ++ behind) :
    line.form.isFunction = true ∧ a.rest = line.foundName ++ rest := by
  have first : ∀ c ∈ (line.foundName ++ rest).head?, identifier.first.mem c = true :=
    fun _ here => named.first here
  have first₁ : ∀ c ∈ a.rest.head?, identifier.first.mem c = true :=
    fun _ here => named'.first (found ▸ here)
  have begins : ∀ o, (seqs functionMark).Takes o a → Goes o.rest := by
    intro o mark
    obtain ⟨_, _, _, _, _, _, rest⟩ := takes_functionMark mark
    exact rest ▸ Goes.word (by decide) _
  obtain ⟨row, listed, more, o, spaced', rest', mark⟩ := exists_row functionSlots_solid
    line.form.covers_function line.indented spaced (goes_of_first first) shape takes begins
  -- The keyword is found where the words behind the row begin, so it begins the next word.
  obtain ⟨gap₁, star₁, gap₂, blanks₁, starred₁, blanks₂, read⟩ := takes_functionMark mark
  obtain ⟨word, next, only⟩ := line.form.function_of_row row listed
  cases words : line.form.lead.drop row.length with
  | nil => simp [words] at next
  | cons word' words' =>
    obtain rfl : word' = word := by simpa [words] using next
    rw [words] at spaced' only
    cases spaced' with
    | @cons _ gap more _ solid some blanks tail =>
      rw [read, List.append_assoc, List.append_assoc] at rest'
      obtain ⟨z, front, behind⟩ := exists_rest_of_word function_solid.2 some blanks rest'
      obtain ⟨function, last⟩ := only ⟨z, front.symm⟩
      obtain ⟨whole, none⟩ := List.cons.inj last
      -- The word is the keyword and its star, and no other word follows.
      obtain rfl : z = line.form.star := List.append_cancel_left (front.symm.trans whole)
      subst none
      cases tail
      exact ⟨function,
        rest_of_star blanks₁ starred₁ blanks₂ line.form.star_cases blanks first₁ first behind⟩

theorem functionRule_of_line (line : Line) {text : List Char} (isLine : IsLine line.chars text) :
    functionRule.hits text (.ofText text) = if line.form.isFunction then
      [⟨String.ofList line.foundName, .function, 1, true⟩] else [] := by
  obtain ⟨tail, shape, feed⟩ := isLine.exists_tail
  obtain ⟨head, rest, spaced, named, ends, cut⟩ := line.exists_split
  have whole : text = line.pad ++ (head ++ (line.foundName ++ (rest ++ tail))) := by
    rw [shape, cut]
    simp
  split
  next function =>
    -- The keyword and its star are the last word, and a row of the pattern is before it.
    obtain ⟨row, listed, words⟩ := Form.row_of_function function
    obtain ⟨front, last, rfl, rows, mark⟩ := (words ▸ spaced).split
    obtain ⟨_, gap, some, blanks, rfl⟩ := spaced_singleton.mp mark
    have start : (Point.start text).rest = line.pad ++ (front ++ ("function".toList ++
        (line.form.star ++ (gap ++ (line.foundName ++ (rest ++ tail)))))) := by
      simp [Point.start, whole]
    obtain ⟨o, readsPad, rest₁⟩ := Point.exists_reads start
    obtain ⟨b, readsRow, rest₂⟩ := Point.exists_reads rest₁
    obtain ⟨a, marked, rest₃⟩ :=
      functionMark_takes (readsPad.trans readsRow) line.form.star_cases some blanks rest₂
    obtain ⟨q, readsName, _⟩ := Point.exists_reads rest₃
    have takes : (seqs ((many blank :: (functionSlots.flatMap regexes ++ functionMark)) ++
        [.group 1 identifier.regex])).Takes (.start text) q := by
      refine takes_seqs_append.mpr
        ⟨a, takes_seqs_cons.mpr ⟨o, ?_, takes_seqs_append.mpr ⟨b, ?_, marked⟩⟩, ?_⟩
      · exact takes_run.mpr ⟨line.pad, Nat.zero_le _, line.indented, readsPad⟩
      · exact (takes_row functionSlots_solid).mpr ⟨row, listed, front, rows, readsRow⟩
      · exact NameForm.takes_iff.mpr ⟨line.foundName, named, readsName⟩
    apply functionRule_heads.hits_eq_singleton isLine takes
    intro a name behind takes named' ends' found
    have rest' := (name_of_function line spaced named whole takes named' found).2
    exact (NameForm.eq_of_names named' named ends'
      (head_of_tail (identifier.feed_ends (by decide)) feed ends) (found.symm.trans rest')).1
  next other =>
    apply functionRule_heads.hits_eq_nil isLine
    intro a name behind takes named' found
    exact other (name_of_function line spaced named whole takes named' found).1

/-- The beginning of a list of names in braces. -/
def listOpening : List Regex :=
  letters "export" ++ [many blank, maybe (seqs (letters "type" ++ [many blank])), .char '\x7b']

theorem exportListPattern_regex : exportListPattern.regex = seqs ((indent ++ listOpening) ++
    [group 1 (many (.compl (.single '\x7d'))), char '\x7d']) := by
  rw [exportListPattern, ofText_eq rfl]
  rfl

theorem takes_listOpening {o q : Point} (takes : (seqs listOpening).Takes o q) :
    ∃ gap word gap', Blanks gap ∧ Blanks gap' ∧
      (word = [] ∧ gap' = [] ∨ word = "type".toList) ∧
      o.rest = "export".toList ++ (gap ++ (word ++ (gap' ++ '\x7b' :: q.rest))) := by
  obtain ⟨a, first, b, before, c, typed, brace⟩ := takes_seqs_append.mp takes
  obtain ⟨gap, _, blanks, reads⟩ := takes_run.mp before
  have opened : c.rest = '\x7b' :: q.rest := Point.Reads.rest_eq brace
  have front := (takes_chars.mp first).rest_eq
  rcases takes_optional.mp typed with rfl | typed
  · exact ⟨gap, [], [], blanks, .nil, .inl ⟨rfl, rfl⟩, by rw [front, reads.rest_eq, opened]; rfl⟩
  · obtain ⟨d, word, behind⟩ := takes_seqs_append.mp typed
    obtain ⟨gap', _, blanks', reads'⟩ := takes_run.mp behind
    refine ⟨gap, _, gap', blanks, blanks', .inr rfl, ?_⟩
    rw [front, reads.rest_eq, (takes_chars.mp word).rest_eq, reads'.rest_eq, opened]

/-- No line with a declaration begins a list of names. -/
theorem not_listOpening (line : Line) {tail : List Char} {p q : Point}
    (shape : p.rest = line.chars ++ tail) : ¬ (seqs (many blank :: listOpening)).Takes p q := by
  intro takes
  obtain ⟨o, indent, takes⟩ := takes_seqs_cons.mp takes
  obtain ⟨pad, _, blanksPad, readsPad⟩ := takes_run.mp indent
  obtain ⟨gap, word', gap', blanks, blanks', typed, read⟩ := takes_listOpening takes
  obtain ⟨head, rest, spaced, named, _, cut⟩ := line.exists_split
  obtain ⟨word, more, lead, other, only⟩ := line.form.second_word
  have first : ∀ c ∈ (line.foundName ++ (rest ++ tail)).head?, identifier.first.mem c = true :=
    fun _ here => named.first here
  have brace : ∀ behind, Goes ('\x7b' :: behind) := by
    intro behind c here
    obtain rfl : '\x7b' = c := by simpa using here
    decide
  rw [lead] at spaced
  cases spaced with
  | @cons _ gap₁ _ _ solid₁ some₁ blanks₁ spaced =>
    cases spaced with
    | @cons _ gap₂ behind _ solid₂ some₂ blanks₂ spaced =>
      have same : pad ++ ("export".toList ++ (gap ++ (word' ++ (gap' ++ '\x7b' :: q.rest)))) =
          line.pad ++ ("export".toList ++ (gap₁ ++ (word ++ (gap₂ ++ (behind ++
            (line.foundName ++ (rest ++ tail))))))) := by
        rw [← read, ← readsPad.rest_eq, shape, cut]
        simp
      obtain ⟨_, same⟩ := blanks_unique blanksPad line.indented (Goes.word solid₁ _)
        (Goes.word solid₁ _) same
      have same := List.append_cancel_left same
      rcases typed with ⟨rfl, rfl⟩ | rfl
      · -- The brace would be the beginning of the second word.
        obtain ⟨_, same⟩ := blanks_unique blanks blanks₁ (brace _) (Goes.word solid₂ _) same
        obtain ⟨c, word, rfl⟩ := List.exists_cons_of_ne_nil (isSolid_iff.mp solid₂).1
        obtain ⟨rfl, _⟩ := List.cons.inj same
        exact other rfl
      · obtain ⟨_, same⟩ :=
          blanks_unique blanks blanks₁ (Goes.word (by decide) _) (Goes.word solid₂ _) same
        obtain ⟨z, front, same⟩ :=
          exists_rest_of_word (isSolid_iff.mp (by decide)).2 some₂ blanks₂ same
        obtain ⟨whole, rfl⟩ := only ⟨z, front.symm⟩
        obtain rfl : z = [] := by
          rw [whole] at front
          simpa using front
        cases spaced
        -- The brace would be the beginning of the name.
        obtain ⟨_, same⟩ := blanks_unique blanks' blanks₂ (brace _) (goes_of_first first) same
        rw [← same] at first
        exact absurd (first '\x7b' rfl) (by decide)

/-- Lists of names in braces are found in no lines with declarations. -/
theorem exportList_of_lines (lines : List Line) :
    exportListPattern.matchesOf (['\n'].intercalate (lines.map Line.chars)) = [] := by
  have joins : (seqs (indent ++ listOpening)).joins = true := by decide
  have steady : exportListPattern.regex.steady = true := by
    rw [exportListPattern, ofText_eq rfl]
    decide
  have opens : ∀ {p q}, (seqs (indent ++ listOpening)).Takes p q →
      Assertion.holds .lineStart p = true ∧ (seqs (many blank :: listOpening)).Takes p q := by
    rintro p q ⟨_, rfl, _, ⟨begins, rfl⟩, takes⟩
    exact ⟨begins, takes⟩
  -- The beginning of a list is not found, so neither is a list.
  have none :
      (seqs (indent ++ listOpening)).matchesOf (['\n'].intercalate (lines.map Line.chars)) = [] := by
    refine matchesOf_lines joins Line.plain fun line text isLine => ?_
    rw [matchesOf_line joins (fun takes => (opens takes).1) isLine, Option.toList_eq_nil_iff,
      Option.eq_none_iff_forall_not_mem]
    intro m found
    obtain ⟨tail, shape, _⟩ := isLine.exists_tail
    have takes := outcomes_takes (m := .ofPoint (.start text)) (List.mem_of_head? found)
    have rest : (Point.start text).rest = line.chars ++ tail := shape
    exact not_listOpening line rest (opens takes).2
  rw [List.eq_nil_iff_forall_not_mem]
  intro m member
  obtain ⟨p, inside, preferred⟩ := mem_matchesOf steady member
  have takes := outcomes_takes (m := .ofPoint p) (List.mem_of_head? preferred)
  rw [exportListPattern_regex] at takes
  obtain ⟨o, opening, _⟩ := takes_seqs_append.mp takes
  obtain ⟨first, listed⟩ :=
    exists_mem_matchesOf ((matchesIn_iff (joins_iff.mp joins).1).mpr ⟨p, o, inside, opening⟩)
  rw [none] at listed
  exact List.not_mem_nil listed

theorem exportGroups_of_lines (lines : List Line) : ∀ group ∈ javaScript.exportGroups,
    group.hits (['\n'].intercalate (lines.map Line.chars))
      (.ofText (['\n'].intercalate (lines.map Line.chars))) = [] := by
  intro group listed
  obtain rfl := List.mem_singleton.mp listed
  rw [ExportGroup.hits, exportList_of_lines]
  rfl

/-- A line declares its symbol and no other one. -/
theorem declared_line (line : Line) {text : List Char} (isLine : IsLine line.chars text) :
    declared rules text = (some (line.symbol 1)).toList := by
  have classes : Form.fits classSlots Form.isClass = true := by decide
  have types : Form.fits typeSlots Form.isType = true := by decide
  have constants : Form.fits constantSlots Form.isConstant = true := by decide
  have vars : Form.fits variableSlots Form.isVariable = true := by decide
  apply declared_of_hits
  simp only [rules, List.flatMap_cons, List.flatMap_nil, functionRule_of_line line isLine,
    hits_of_line classRule_keyed classes line isLine, hits_of_line typeRule_keyed types line isLine,
    hits_of_line constantRule_keyed constants line isLine,
    hits_of_line variableRule_keyed vars line isLine]
  rw [Line.symbol]
  cases line.form <;> rfl

theorem exports?_of_exportLines (lines : List Line) :
    javaScript.exports? (Text.join "\n" (lines.map fun line => String.ofList line.chars)) =
      some (lines.zipIdx.map fun e => e.1.symbol (e.2 + 1)) := by
  have found := exports?_of_each exportRules_eq rules_linewise
    (fun line number => some (Line.symbol line number)) ?_ Line.plain (fun line _ => declared_line line)
    (exportGroups_of_lines lines)
  · rw [found, List.filterMap_eq_map']
  · intro line n
    simp [Line.symbol, Export.down, Nat.add_comm]

/-- Lines with export declarations declare exactly one symbol each, in their order, which is public
and stands at the number of its line. It has the name of the line, except that a constant enumeration
is declared under the name `enum`. -/
theorem export_lines_declare_once (lines : List Line) :
    ∃ symbols, javaScript.exports?
        (Text.join "\n" (lines.map fun line => String.ofList line.chars)) = some symbols ∧
      symbols.length = lines.length ∧
      ∀ i line, lines[i]? = some line → ∃ x, symbols[i]? = some x ∧ x.line = i + 1 ∧
        x.isPublic = true ∧ x.kind = line.form.kind ∧
        (line.form ≠ .constantEnumeration → x.name = String.ofList line.name) ∧
        (line.form = .constantEnumeration → x.name = "enum") := by
  refine ⟨_, exports?_of_exportLines lines, by simp, fun i line listed => ?_⟩
  refine ⟨line.symbol (i + 1), by simp [listed], rfl, rfl, rfl, fun other => ?_, fun same => ?_⟩
  · simp [Line.symbol, Line.foundName, other]
  · simp [Line.symbol, Line.foundName, same]

/-- `export const enum Color {}` -/
def constantColor : Line where
  form := .constantEnumeration
  pad := []
  head := "export".toList ++ ([' '] ++ ("const".toList ++ ([' '] ++ ("enum".toList ++ ([' '] ++ [])))))
  name := "Color".toList
  rest := " \x7b\x7d".toList
  indented := .nil
  words := .cons (by decide) (by simp) .space
    (.cons (by decide) (by simp) .space (.cons (by decide) (by simp) .space .nil))
  named := ⟨by decide, Nat.zero_le _, List.all_eq_true.mp (by decide)⟩
  ends := by
    rintro c ⟨⟩
    decide
  single := by decide

/-- A constant enumeration is not declared under its own name. -/
theorem constant_enumeration_misnamed :
    javaScript.exports? "export const enum Color \x7b\x7d" = some [⟨"enum", .constant, 1, true⟩] := by
  have source : "export const enum Color \x7b\x7d" =
      Text.join "\n" ([constantColor].map fun line => String.ofList line.chars) := by
    decide +kernel
  rw [source, exports?_of_exportLines]
  rfl

end Ripple.Language.JavaScript
