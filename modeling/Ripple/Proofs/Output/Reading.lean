import Ripple.Output.Document

/-!
A reader for structured documents. A text is cut into tokens, between which there may be white
space, and the tokens are put together with the open lists and records on a stack. A document is
written as a whole if nothing in it is unwritable, and then the reader gives it back from both of its
written forms: these have the same tokens, since an escape stands for its character and nothing behind
a number or a word can be taken for more of it.
-/

namespace Ripple.Document

/-- What is to be shown of a list or a record may be assumed of its parts. -/
theorem induction {motive : Document → Prop} (null : motive .null) (bool : ∀ b, motive (.bool b))
    (number : ∀ n, motive (.number n)) (text : ∀ s, motive (.text s))
    (list : ∀ items, (∀ d ∈ items, motive d) → motive (.list items))
    (record : ∀ fields, (∀ field ∈ fields, motive field.2) → motive (.record fields))
    (unwritable : motive .unwritable) (d : Document) : motive d :=
  Document.rec (motive_1 := motive) (motive_2 := fun items => ∀ d ∈ items, motive d)
    (motive_3 := fun fields => ∀ field ∈ fields, motive field.2)
    (motive_4 := fun field => motive field.2)
    null bool number text list record unwritable
    (by simp) (fun _ _ first others => List.forall_mem_cons.mpr ⟨first, others⟩)
    (by simp) (fun _ _ first others => List.forall_mem_cons.mpr ⟨first, others⟩)
    (fun _ _ value => value) d

/-- The smallest parts of a written document. -/
inductive Token where
  | listStart | listEnd | recordStart | recordEnd | comma | colon
  /-- A document without parts. -/
  | atom (d : Document)

section Tokens

/-- White space between tokens. -/
def isWhite (c : Char) : Bool := c = ' ' || c = '\t' || c = '\n' || c = '\r'

def hexDigit? (c : Char) : Option Nat :=
  if '0' ≤ c ∧ c ≤ '9' then some (c.toNat - 48)
  else if 'a' ≤ c ∧ c ≤ 'f' then some (c.toNat - 87)
  else if 'A' ≤ c ∧ c ≤ 'F' then some (c.toNat - 55)
  else none

/-- A unit of sixteen bits, given by four hexadecimal digits. -/
def readUnit : List Char → Option (Nat × List Char)
  | a :: b :: c :: d :: rest =>
    match hexDigit? a, hexDigit? b, hexDigit? c, hexDigit? d with
    | some a, some b, some c, some d => some (((a * 16 + b) * 16 + c) * 16 + d, rest)
    | _, _, _, _ => none
  | _ => none

/-- The character of two units, for the characters beyond the sixteen bits. -/
def joinUnits (high low : Nat) : Option Char :=
  if high < 0xdc00 && 0xdc00 ≤ low && low ≤ 0xdfff then
    some (Char.ofNat (0x10000 + (high - 0xd800) * 0x400 + (low - 0xdc00)))
  else none

/-- The character of one unit or of two. -/
def readUnits (cs : List Char) : Option (Char × List Char) :=
  match readUnit cs with
  | none => none
  | some (high, rest) =>
    if high < 0xd800 || 0xdfff < high then some (Char.ofNat high, rest)
    else
      match rest with
      | '\\' :: 'u' :: rest =>
        (readUnit rest).bind fun (low, rest) => (joinUnits high low).map fun c => (c, rest)
      | _ => none

/-- The characters that may stand behind a backslash, with those that they stand for. -/
def escapes : List (Char × Char) :=
  [('"', '"'), ('\\', '\\'), ('/', '/'), ('b', '\x08'), ('f', '\x0c'), ('n', '\n'), ('r', '\r'),
    ('t', '\t')]

/-- A character of a text, as it is written between quotes. -/
def readChar : List Char → Option (Char × List Char)
  | [] => none
  | c :: rest =>
    if c = '\\' then
      match rest with
      | [] => none
      | e :: rest => if e = 'u' then readUnits rest else (escapes.lookup e).map fun c => (c, rest)
    else if c.toNat < 32 then none
    else some (c, rest)

theorem readUnit_shorter {cs rest : List Char} {n : Nat} (read : readUnit cs = some (n, rest)) :
    rest.length < cs.length := by
  unfold readUnit at read
  split at read
  · split at read
    · cases read
      simp only [List.length_cons]
      omega
    · cases read
  · cases read

theorem readUnits_shorter {cs rest : List Char} {c : Char} (read : readUnits cs = some (c, rest)) :
    rest.length < cs.length := by
  unfold readUnits at read
  split at read
  · cases read
  next high behind first =>
    have := readUnit_shorter first
    split at read
    · cases read
      assumption
    · split at read
      · obtain ⟨⟨low, behind'⟩, second, joined⟩ := Option.bind_eq_some_iff.mp read
        obtain ⟨_, _, same⟩ := Option.map_eq_some_iff.mp joined
        have := readUnit_shorter second
        cases same
        simp only [List.length_cons] at *
        omega
      · cases read

theorem readChar_shorter {cs rest : List Char} {c : Char} (read : readChar cs = some (c, rest)) :
    rest.length < cs.length := by
  unfold readChar at read
  split at read
  · cases read
  · split at read
    · split at read
      · cases read
      · split at read
        · have := readUnits_shorter read
          simp only [List.length_cons]
          omega
        · obtain ⟨_, _, same⟩ := Option.map_eq_some_iff.mp read
          cases same
          simp only [List.length_cons]
          omega
    · split at read
      · cases read
      · cases read
        simp

/-- A text up to its closing quote, and what follows it. -/
def readText (cs : List Char) : Option (List Char × List Char) :=
  if cs.head? = some '"' then some ([], cs.tail)
  else
    match _ : readChar cs with
    | none => none
    | some (c, rest) => (readText rest).map fun (content, rest) => (c :: content, rest)
termination_by cs.length
decreasing_by exact readChar_shorter (by assumption)

/-- A number without superfluous zeros in front. -/
def readNumber (digits : List Char) : Option Document :=
  if digits.head? = some '0' && 1 < digits.length then none
  else some (.number (Nat.ofDigitChars 10 digits 0))

def readWord (letters : List Char) : Option Document :=
  if letters = ['n', 'u', 'l', 'l'] then some .null
  else if letters = ['t', 'r', 'u', 'e'] then some (.bool true)
  else if letters = ['f', 'a', 'l', 's', 'e'] then some (.bool false)
  else none

/-- The signs around and between the parts of a document. -/
def signs : List (Char × Token) :=
  [('[', .listStart), (']', .listEnd), ('\x7b', .recordStart), ('\x7d', .recordEnd), (',', .comma),
    (':', .colon)]

/-- The token that begins with a character, and what follows it. -/
def readToken (c : Char) (rest : List Char) : Option (Token × List Char) :=
  match signs.lookup c with
  | some sign => some (sign, rest)
  | none =>
    if c = '"' then
      (readText rest).map fun (content, rest) => (.atom (.text (String.ofList content)), rest)
    else if c.isDigit then
      (readNumber (c :: rest.takeWhile Char.isDigit)).map fun d =>
        (.atom d, rest.dropWhile Char.isDigit)
    else
      (readWord (c :: rest.takeWhile Char.isAlpha)).map fun d =>
        (.atom d, rest.dropWhile Char.isAlpha)

theorem readText_closed (rest : List Char) : readText ('"' :: rest) = some ([], rest) := by
  rw [readText, if_pos List.head?_cons, List.tail_cons]

theorem readText_open {cs : List Char} (opened : cs.head? ≠ some '"') :
    readText cs = (readChar cs).bind fun (c, rest) =>
      (readText rest).map fun (content, rest) => (c :: content, rest) := by
  rw [readText, if_neg opened]
  split
  next failed => rw [failed, Option.bind_none]
  next found => rw [found, Option.bind_some]

theorem readText_shorter {cs rest content : List Char} (read : readText cs = some (content, rest)) :
    rest.length ≤ cs.length := by
  induction cs using readText.induct generalizing content rest with
  | case1 cs closed =>
    rw [readText, if_pos closed] at read
    cases read
    simp
  | case2 cs opened failed =>
    rw [readText_open opened, failed] at read
    cases read
  | case3 cs opened c behind found ih =>
    rw [readText_open opened, found] at read
    obtain ⟨⟨content', rest'⟩, read', same⟩ := Option.map_eq_some_iff.mp read
    cases same
    exact Nat.le_of_lt (Nat.lt_of_le_of_lt (ih read') (readChar_shorter found))

theorem readToken_shorter {c : Char} {cs rest : List Char} {t : Token}
    (read : readToken c cs = some (t, rest)) : rest.length ≤ cs.length := by
  unfold readToken at read
  split at read
  · cases read
    exact Nat.le_refl _
  · split at read
    · obtain ⟨⟨content, rest'⟩, read', same⟩ := Option.map_eq_some_iff.mp read
      cases same
      exact readText_shorter read'
    · split at read <;>
      · obtain ⟨_, _, same⟩ := Option.map_eq_some_iff.mp read
        cases same
        exact (List.dropWhile_sublist _).length_le

/-- Cuts a text into tokens. -/
def tokens? : List Char → Option (List Token)
  | [] => some []
  | c :: rest =>
    if isWhite c then tokens? rest
    else
      match _ : readToken c rest with
      | none => none
      | some (t, rest) => (tokens? rest).map (t :: ·)
termination_by cs => cs.length
decreasing_by
  · simp
  · exact Nat.lt_succ_of_le (readToken_shorter (by assumption))

end Tokens

section Stack

/-- A list or a record that has been opened, with its finished parts in reverse. -/
inductive Frame where
  | items (done : List Document)
  /-- The last name is that of the field to come. -/
  | fields (done : List (String × Document)) (name : String)

/-- What has been read, with the open lists and records, the innermost first. -/
inductive State where
  | valueDue (stack : List Frame)
  | listOpened (stack : List Frame)
  | recordOpened (stack : List Frame)
  | nameDue (done : List (String × Document)) (stack : List Frame)
  | colonDue (done : List (String × Document)) (name : String) (stack : List Frame)
  | finished (d : Document) (stack : List Frame)

namespace State

/-- Begins a value. -/
def beginValue (stack : List Frame) : Token → Option State
  | .listStart => some (listOpened stack)
  | .recordStart => some (recordOpened stack)
  | .atom d => some (finished d stack)
  | _ => none

/-- Begins a field. -/
def beginField (done : List (String × Document)) (stack : List Frame) : Token → Option State
  | .atom (.text name) => some (colonDue done name stack)
  | _ => none

/-- Goes on behind a part of a list or a record. -/
def goOn (d : Document) : List Frame → Token → Option State
  | .items done :: stack, .comma => some (valueDue (.items (d :: done) :: stack))
  | .items done :: stack, .listEnd => some (finished (.list (d :: done).reverse) stack)
  | .fields done name :: stack, .comma => some (nameDue ((name, d) :: done) stack)
  | .fields done name :: stack, .recordEnd =>
    some (finished (.record ((name, d) :: done).reverse) stack)
  | _, _ => none

def step : State → Token → Option State
  | valueDue stack, t => beginValue stack t
  | listOpened stack, .listEnd => some (finished (.list []) stack)
  | listOpened stack, t => beginValue (.items [] :: stack) t
  | recordOpened stack, .recordEnd => some (finished (.record []) stack)
  | recordOpened stack, t => beginField [] stack t
  | nameDue done stack, t => beginField done stack t
  | colonDue done name stack, .colon => some (valueDue (.fields done name :: stack))
  | colonDue _ _ _, _ => none
  | finished d stack, t => goOn d stack t

/-- Puts tokens together. -/
def run (s : State) (ts : List Token) : Option State := ts.foldlM step s

end State

/-- The document with the given tokens. -/
def ofTokens? (ts : List Token) : Option Document :=
  match State.run (.valueDue []) ts with
  | some (.finished d []) => some d
  | _ => none

/-- Reads a document. -/
def read? (s : String) : Option Document := (tokens? s.toList).bind ofTokens?

end Stack

section Spelling

/-- Nothing at the beginning of a text can be taken for more of a number or a word. -/
def Ends (cs : List Char) : Prop := ∀ c, cs.head? = some c → c.isAlphanum = false

/-- A text spells tokens, with white space between them. -/
inductive Spells : List Token → List Char → Prop
  | nil : Spells [] []
  | white {c : Char} {cs : List Char} {ts : List Token} :
      isWhite c = true → Spells ts cs → Spells ts (c :: cs)
  | sign {c : Char} {cs : List Char} {t : Token} {ts : List Token} :
      signs.lookup c = some t → Spells ts cs → Spells (t :: ts) (c :: cs)
  | text (value : String) {cs : List Char} {ts : List Token} :
      Spells ts cs → Spells (.atom (.text value) :: ts) (quote value ++ cs)
  | number (n : Nat) {cs : List Char} {ts : List Token} :
      Ends cs → Spells ts cs → Spells (.atom (.number n) :: ts) (Nat.toDigits 10 n ++ cs)
  | word {d : Document} {letters cs : List Char} {ts : List Token} :
      readWord letters = some d → Ends cs → Spells ts cs → Spells (.atom d :: ts) (letters ++ cs)

theorem hexDigit?_digitChar {n : Nat} (small : n < 16) : hexDigit? n.digitChar = some n := by
  have all : ∀ n < 16, hexDigit? n.digitChar = some n := by decide
  exact all n small

/-- A character is read from its written form. -/
theorem readChar_escapedChar (c : Char) (rest : List Char) :
    readChar (escapedChar c ++ rest) = some (c, rest) := by
  unfold escapedChar
  split
  iterate 7 rfl
  next _ _ backslash _ _ _ _ _ =>
    split
    next control =>
      -- The code has two digits, behind two zeros.
      have high := @hexDigit?_digitChar (c.toNat / 16) (by omega)
      have low := @hexDigit?_digitChar (c.toNat % 16) (by omega)
      have zero : hexDigit? '0' = some 0 := by decide
      have code : ((0 * 16 + 0) * 16 + c.toNat / 16) * 16 + c.toNat % 16 = c.toNat := by omega
      have plain : (c.toNat < 0xd800 || 0xdfff < c.toNat) = true := by
        have : c.toNat < 0xd800 := by omega
        simp [this]
      simp only [List.cons_append, List.nil_append, readChar, if_true, readUnits, readUnit, zero,
        high, low, code, plain, Char.ofNat_toNat]
    next visible =>
      simp only [List.cons_append, List.nil_append, readChar, if_neg backslash, if_neg visible]

theorem head?_escapedChar (c : Char) (rest : List Char) :
    (escapedChar c ++ rest).head? ≠ some '"' := by
  unfold escapedChar
  split
  iterate 7 simp
  next _ quote _ _ _ _ _ _ =>
    split
    · simp
    · simpa using quote

/-- A text is read from its written form. -/
theorem readText_escaped (cs rest : List Char) :
    readText (cs.flatMap escapedChar ++ '"' :: rest) = some (cs, rest) := by
  induction cs with
  | nil => exact readText_closed rest
  | cons c cs ih =>
    rw [List.flatMap_cons, List.append_assoc, readText_open (head?_escapedChar c _),
      readChar_escapedChar, Option.bind_some]
    dsimp only
    rw [ih, Option.map_some]

/-- A number has no superfluous zero in front. -/
theorem head?_toDigits {n : Nat} (long : 1 < (Nat.toDigits 10 n).length) :
    (Nat.toDigits 10 n).head? ≠ some '0' := by
  induction n using Nat.strongRecOn with
  | ind n ih =>
    rcases Nat.lt_or_ge n 10 with small | large
    · rw [Nat.toDigits_of_lt_base small] at long
      simp at long
    · rw [Nat.toDigits_of_base_le (by decide) large, List.head?_append,
        Option.or_of_isSome (List.isSome_head?.mpr Nat.toDigits_ne_nil)]
      rcases Nat.lt_or_ge (n / 10) 10 with small' | large'
      · -- The first digit is the quotient, which is not zero.
        rw [Nat.toDigits_of_lt_base small', List.head?_cons, ne_eq, Option.some.injEq,
          Nat.digitChar_eq_zero]
        omega
      · refine ih (n / 10) (by omega) ?_
        rw [Nat.toDigits_of_base_le (by decide) large', List.length_append]
        have := List.length_pos_iff.mpr (Nat.toDigits_ne_nil (b := 10) (n := n / 10 / 10))
        simp only [List.length_singleton]
        omega

theorem takeWhile_run {p : Char → Bool} {run rest : List Char} (all : ∀ c ∈ run, p c = true)
    (ends : ∀ c, rest.head? = some c → p c = false) :
    (run ++ rest).takeWhile p = run ∧ (run ++ rest).dropWhile p = rest := by
  have stop : rest.takeWhile p = [] ∧ rest.dropWhile p = rest := by
    cases rest with
    | nil => exact ⟨rfl, rfl⟩
    | cons c rest => simp [ends c rfl]
  rw [List.takeWhile_append_of_pos all, List.dropWhile_append_of_pos all, stop.1, stop.2,
    List.append_nil]
  exact ⟨rfl, rfl⟩

theorem isDigit_eq_false {c : Char} (ends : c.isAlphanum = false) : c.isDigit = false := by
  simp_all [Char.isAlphanum]

theorem isAlpha_eq_false {c : Char} (ends : c.isAlphanum = false) : c.isAlpha = false := by
  simp_all [Char.isAlphanum]

/-- A character of a word or a number is neither white space nor a sign nor a quote. -/
theorem plain_of_isAlphanum {c : Char} (inside : c.isAlphanum = true) :
    isWhite c = false ∧ signs.lookup c = none ∧ c ≠ '"' := by
  have other : ∀ d : Char, d.isAlphanum = false → (c == d) = false := by
    rintro d outside
    rw [beq_eq_false_iff_ne]
    rintro rfl
    rw [inside] at outside
    cases outside
  refine ⟨?_, ?_, beq_eq_false_iff_ne.mp (other '"' rfl)⟩
  · simpa [isWhite, ← beq_eq_false_iff_ne] using
      ⟨⟨⟨other ' ' rfl, other '\t' rfl⟩, other '\n' rfl⟩, other '\r' rfl⟩
  · simp [signs, List.lookup_cons, other '[' rfl, other ']' rfl, other '\x7b' rfl,
      other '\x7d' rfl, other ',' rfl, other ':' rfl]

/-- A text begins with a token, and the rest follows it. -/
def Begins (t : Token) (text rest : List Char) : Prop :=
  ∃ c cs, text = c :: cs ∧ isWhite c = false ∧ readToken c cs = some (t, rest)

theorem begins_sign {c : Char} {t : Token} (sign : signs.lookup c = some t) (rest : List Char) :
    Begins t (c :: rest) rest := by
  have visible : ∀ s ∈ signs, isWhite s.1 = false := by simp [signs, isWhite]
  obtain ⟨before, after, shape, _⟩ := List.lookup_eq_some_iff.mp sign
  exact ⟨c, rest, rfl, visible (c, t) (by simp [shape]), by simp [readToken, sign]⟩

theorem begins_quote (value : String) (rest : List Char) :
    Begins (.atom (.text value)) (quote value ++ rest) rest := by
  refine ⟨'"', value.toList.flatMap escapedChar ++ '"' :: rest, by simp [quote], rfl, ?_⟩
  have unsigned : signs.lookup '"' = none := rfl
  simp [readToken, unsigned, readText_escaped]

theorem readNumber_toDigits (n : Nat) : readNumber (Nat.toDigits 10 n) = some (.number n) := by
  have proper : ((Nat.toDigits 10 n).head? = some '0' && 1 < (Nat.toDigits 10 n).length) = false := by
    rw [Bool.eq_false_iff]
    intro both
    simp only [Bool.and_eq_true, decide_eq_true_eq] at both
    exact head?_toDigits both.2 both.1
  rw [readNumber, if_neg (by rw [proper]; simp), Nat.ofDigitChars_toDigits (by decide) (by decide)]

theorem begins_number (n : Nat) {rest : List Char} (ends : Ends rest) :
    Begins (.atom (.number n)) (Nat.toDigits 10 n ++ rest) rest := by
  have value := readNumber_toDigits n
  have all : ∀ d ∈ Nat.toDigits 10 n, d.isDigit = true := by
    intro d member
    exact Nat.isDigit_of_mem_toDigits (by decide) (by decide) member
  obtain ⟨c, digits, shape⟩ := List.exists_cons_of_ne_nil (Nat.toDigits_ne_nil (b := 10) (n := n))
  rw [shape] at value all
  obtain ⟨digit, others⟩ := List.forall_mem_cons.mp all
  obtain ⟨visible, unsigned, unquoted⟩ := @plain_of_isAlphanum c (by simp [Char.isAlphanum, digit])
  -- The digits end where the number does, since no digit follows.
  obtain ⟨taken, left⟩ := @takeWhile_run Char.isDigit digits rest others
    fun c first => isDigit_eq_false (ends c first)
  exact ⟨c, digits ++ rest, by rw [shape, List.cons_append], visible,
    by simp [readToken, unsigned, unquoted, digit, taken, left, value]⟩

theorem readWord_cases {letters : List Char} {d : Document} (named : readWord letters = some d) :
    letters = ['n', 'u', 'l', 'l'] ∨ letters = ['t', 'r', 'u', 'e'] ∨
      letters = ['f', 'a', 'l', 's', 'e'] := by
  unfold readWord at named
  split at named
  · exact .inl ‹_›
  · split at named
    · exact .inr (.inl ‹_›)
    · split at named
      · exact .inr (.inr ‹_›)
      · cases named

theorem begins_word {letters rest : List Char} {d : Document} (named : readWord letters = some d)
    (ends : Ends rest) : Begins (.atom d) (letters ++ rest) rest := by
  have run : ∃ c others, letters = c :: others ∧ c.isAlpha = true ∧ c.isDigit = false ∧
      ∀ d ∈ others, d.isAlpha = true := by
    rcases readWord_cases named with rfl | rfl | rfl
    · exact ⟨_, _, rfl, rfl, rfl, List.all_eq_true.mp rfl⟩
    · exact ⟨_, _, rfl, rfl, rfl, List.all_eq_true.mp rfl⟩
    · exact ⟨_, _, rfl, rfl, rfl, List.all_eq_true.mp rfl⟩
  obtain ⟨c, others, rfl, letter, noDigit, all⟩ := run
  obtain ⟨visible, unsigned, unquoted⟩ := @plain_of_isAlphanum c (by simp [Char.isAlphanum, letter])
  obtain ⟨taken, left⟩ := @takeWhile_run Char.isAlpha others rest all
    fun c first => isAlpha_eq_false (ends c first)
  exact ⟨c, others ++ rest, rfl, visible,
    by simp [readToken, unsigned, unquoted, noDigit, taken, left, named]⟩

theorem Begins.tokens?_eq {t : Token} {text rest : List Char} (begins : Begins t text rest)
    {ts : List Token} (behind : tokens? rest = some ts) : tokens? text = some (t :: ts) := by
  obtain ⟨c, cs, rfl, visible, read⟩ := begins
  rw [tokens?, if_neg (by simp [visible])]
  split
  next failed => rw [read] at failed; cases failed
  next found =>
    rw [read] at found
    cases found
    rw [behind, Option.map_some]

theorem Spells.tokens?_eq {cs : List Char} {ts : List Token} (spells : Spells ts cs) :
    tokens? cs = some ts := by
  induction spells with
  | nil => rw [tokens?]
  | white white _ ih => rw [tokens?, if_pos white, ih]
  | sign sign _ ih => exact (begins_sign sign _).tokens?_eq ih
  | text value _ ih => exact (begins_quote value _).tokens?_eq ih
  | number n ends _ ih => exact (begins_number n ends).tokens?_eq ih
  | word named ends _ ih => exact (begins_word named ends).tokens?_eq ih

end Spelling

mutual

/-- The tokens of a document. -/
def tokens : Document → List Token
  | list items => .listStart :: (itemTokens items ++ [.listEnd])
  | record fields => .recordStart :: (fieldTokens fields ++ [.recordEnd])
  | d => [.atom d]

def itemTokens : List Document → List Token
  | [] => []
  | [d] => tokens d
  | d :: rest => tokens d ++ .comma :: itemTokens rest

def fieldTokens : List (String × Document) → List Token
  | [] => []
  | [(name, d)] => .atom (.text name) :: .colon :: tokens d
  | (name, d) :: rest => .atom (.text name) :: .colon :: (tokens d ++ .comma :: fieldTokens rest)

end

section Parts

/-- A function that writes the elements of a list one by one, with a separator between them. -/
theorem eq_intercalate {α β : Type} {f : List α → List β} {sep : β} {write : α → List β}
    (none : f [] = []) (one : ∀ x, f [x] = write x)
    (more : ∀ x y rest, f (x :: y :: rest) = write x ++ sep :: f (y :: rest)) (xs : List α) :
    f xs = [sep].intercalate (xs.map write) := by
  induction xs with
  | nil => exact none
  | cons x xs ih =>
    cases xs with
    | nil => rw [one, List.map_singleton, List.intercalate_singleton]
    | cons y rest =>
      simp only [more, ih, List.map_cons, List.intercalate_cons_cons, List.append_assoc,
        List.singleton_append]

theorem intercalate_begins {β : Type} (sep : β) (first : List β) (others : List (List β)) :
    ∃ more, [sep].intercalate (first :: others) = first ++ more := by
  cases others with
  | nil => exact ⟨[], by rw [List.intercalate_singleton, List.append_nil]⟩
  | cons second others => exact ⟨_, by rw [List.intercalate_cons_cons, List.append_assoc]⟩

theorem itemTokens_eq (items : List Document) :
    itemTokens items = [.comma].intercalate (items.map tokens) :=
  eq_intercalate rfl (fun _ => rfl) (fun _ _ _ => rfl) items

theorem fieldTokens_eq (fields : List (String × Document)) :
    fieldTokens fields = [.comma].intercalate
      (fields.map fun f => .atom (.text f.1) :: .colon :: tokens f.2) :=
  eq_intercalate rfl (fun _ => rfl) (fun _ _ _ => rfl) fields

theorem itemStrokes_eq (l : Layout) (level : Nat) (items : List Document) :
    itemStrokes l level items = [some ','].intercalate
      (items.map fun d => puts (l.newLine level) ++ strokes l level d) := by
  refine eq_intercalate rfl (fun _ => rfl) (fun d e rest => ?_) items
  simp [itemStrokes]

theorem fieldStrokes_eq (l : Layout) (level : Nat) (fields : List (String × Document)) :
    fieldStrokes l level fields = [some ','].intercalate (fields.map fun f =>
      puts (l.newLine level ++ quote f.1 ++ l.colon) ++ strokes l level f.2) := by
  refine eq_intercalate rfl (fun _ => rfl) (fun f g rest => ?_) fields
  simp [fieldStrokes]

end Parts

section Strokes

/-- A document without anything that cannot be written. -/
inductive Writable : Document → Prop
  | null : Writable null
  | bool (b : Bool) : Writable (bool b)
  | number (n : Nat) : Writable (number n)
  | text (s : String) : Writable (text s)
  | list {items : List Document} : (∀ d ∈ items, Writable d) → Writable (list items)
  | record {fields : List (String × Document)} : (∀ field ∈ fields, Writable field.2) →
      Writable (record fields)

theorem writable_list_iff {items : List Document} :
    (list items).Writable ↔ ∀ d ∈ items, d.Writable := by
  refine ⟨fun writable => ?_, .list⟩
  cases writable with
  | list each => exact each

theorem writable_record_iff {fields : List (String × Document)} :
    (record fields).Writable ↔ ∀ field ∈ fields, field.2.Writable := by
  refine ⟨fun writable => ?_, .record⟩
  cases writable with
  | record each => exact each

theorem all_puts (cs : List Char) : (puts cs).all Option.isSome = true := by simp [puts]

/-- Between parts that are put out as a whole there is nothing else to fail. -/
theorem all_intercalate (c : Char) (parts : List (List (Option Char))) :
    ([some c].intercalate parts).all Option.isSome = parts.all (·.all Option.isSome) := by
  induction parts with
  | nil => rfl
  | cons part parts ih =>
    cases parts with
    | nil => simp
    | cons next parts => simp [ih]

/-- The writer comes to its end exactly if it meets nothing that cannot be written. -/
theorem all_strokes_iff (l : Layout) (level : Nat) (d : Document) :
    (d.strokes l level).all Option.isSome = true ↔ d.Writable := by
  induction d using Document.induction generalizing level with
  | null => exact iff_of_true (all_puts _) .null
  | bool b => exact iff_of_true (all_puts _) (.bool b)
  | number n => exact iff_of_true (all_puts _) (.number n)
  | text value => exact iff_of_true (all_puts _) (.text value)
  | unwritable => exact iff_of_false (by simp [strokes]) (by rintro ⟨⟩)
  | list items ih =>
    rw [writable_list_iff]
    cases items with
    | nil => exact iff_of_true (all_puts _) (by simp)
    | cons first rest =>
      rw [strokes, itemStrokes_eq]
      simp only [List.all_append, all_puts, all_intercalate, Bool.true_and, Bool.and_true,
        List.all_map, List.all_eq_true]
      simp only [Function.comp_apply, List.all_append, all_puts, Bool.true_and]
      exact forall₂_congr fun d member => ih d member _
  | record fields ih =>
    rw [writable_record_iff]
    cases fields with
    | nil => exact iff_of_true (all_puts _) (by simp)
    | cons first rest =>
      rw [strokes, fieldStrokes_eq]
      simp only [List.all_append, all_puts, all_intercalate, Bool.true_and, Bool.and_true,
        List.all_map, List.all_eq_true]
      simp only [Function.comp_apply, List.all_append, all_puts, Bool.true_and]
      exact forall₂_congr fun field member => ih field member _

theorem whole_write_iff (l : Layout) (d : Document) : (d.write l).whole = true ↔ d.Writable := by
  rw [← all_strokes_iff l 0, write, Written.ofStrokes, List.all_append]
  simp

/-- The characters that the writer of a document puts out if nothing keeps it from it. -/
def chars (l : Layout) (level : Nat) (d : Document) : List Char :=
  (d.strokes l level).filterMap id

theorem filterMap_puts (cs : List Char) : (puts cs).filterMap id = cs := by
  rw [puts, List.filterMap_map, Function.id_comp, List.filterMap_some]

theorem filterMap_intercalate (c : Char) (parts : List (List (Option Char))) :
    ([some c].intercalate parts).filterMap id =
      [c].intercalate (parts.map fun part => part.filterMap id) := by
  induction parts with
  | nil => rfl
  | cons part parts ih =>
    cases parts with
    | nil => simp
    | cons next parts =>
      simp only [List.map_cons, List.intercalate_cons_cons, List.filterMap_append] at ih ⊢
      rw [ih]
      rfl

theorem chars_list (l : Layout) (level : Nat) (first : Document) (rest : List Document) :
    chars l level (list (first :: rest)) = '[' :: ([','].intercalate ((first :: rest).map fun d =>
      l.newLine (level + 1) ++ chars l (level + 1) d) ++ (l.newLine level ++ [']'])) := by
  rw [chars, strokes, itemStrokes_eq, List.filterMap_append, List.filterMap_append, filterMap_puts,
    filterMap_puts, filterMap_intercalate, List.map_map, List.append_assoc, List.singleton_append]
  simp only [Function.comp_def, List.filterMap_append, filterMap_puts, chars]

theorem chars_record (l : Layout) (level : Nat) (first : String × Document)
    (rest : List (String × Document)) :
    chars l level (record (first :: rest)) = '\x7b' :: ([','].intercalate ((first :: rest).map fun f =>
      l.newLine (level + 1) ++ quote f.1 ++ l.colon ++ chars l (level + 1) f.2) ++
        (l.newLine level ++ ['\x7d'])) := by
  rw [chars, strokes, fieldStrokes_eq, List.filterMap_append, List.filterMap_append, filterMap_puts,
    filterMap_puts, filterMap_intercalate, List.map_map, List.append_assoc, List.singleton_append]
  simp only [Function.comp_def, List.filterMap_append, filterMap_puts, chars]

/-- What is written of a document without anything unwritable is all of it. -/
theorem text_write {d : Document} (writable : d.Writable) (l : Layout) :
    (d.write l).text.toList = d.chars l 0 ++ ['\n'] := by
  have all : ∀ stroke ∈ d.strokes l 0 ++ [some '\n'], stroke.isSome = true :=
    List.all_eq_true.mp ((whole_write_iff l d).mpr writable)
  have taken : (d.strokes l 0 ++ [some '\n']).takeWhile Option.isSome =
      d.strokes l 0 ++ [some '\n'] := by
    simpa using @List.takeWhile_append_of_pos _ _ _ [] all
  rw [write, Written.ofStrokes, String.toList_ofList, taken, List.filterMap_append]
  rfl

end Strokes

section Writers

theorem ends_of_sign {c : Char} {cs : List Char} {t : Token} (sign : signs.lookup c = some t) :
    Ends (c :: cs) := by
  rintro d first
  cases first
  rw [Bool.eq_false_iff]
  intro inside
  have := (plain_of_isAlphanum inside).2.1
  rw [sign] at this
  cases this

/-- Blanks between tokens say nothing. -/
theorem Spells.blanks {blanks cs : List Char} {ts : List Token}
    (white : ∀ c ∈ blanks, isWhite c = true) (spells : Spells ts cs) : Spells ts (blanks ++ cs) := by
  induction blanks with
  | nil => exact spells
  | cons c blanks ih =>
    obtain ⟨first, others⟩ := List.forall_mem_cons.mp white
    exact .white first (ih others)

theorem ends_blanks {blanks cs : List Char} (white : ∀ c ∈ blanks, isWhite c = true)
    (ends : Ends cs) : Ends (blanks ++ cs) := by
  cases blanks with
  | nil => exact ends
  | cons c blanks =>
    rintro d first
    cases first
    rw [Bool.eq_false_iff]
    intro inside
    have visible := (plain_of_isAlphanum inside).1
    rw [white c List.mem_cons_self] at visible
    cases visible

/-- A layout sets the parts of a document apart by blanks. -/
structure SetsApart (l : Layout) : Prop where
  newLine : ∀ level, ∀ c ∈ l.newLine level, isWhite c = true
  colon : ∃ blanks, l.colon = ':' :: blanks ∧ ∀ c ∈ blanks, isWhite c = true

theorem setsApart_compact : SetsApart .compact :=
  ⟨fun _ => by simp [Layout.compact], [], rfl, by simp⟩

theorem setsApart_indented : SetsApart .indented := by
  refine ⟨fun level c member => ?_, [' '], rfl, by simp [isWhite]⟩
  simp only [Layout.indented, List.mem_cons, List.mem_replicate] at member
  rcases member with rfl | ⟨_, rfl⟩ <;> rfl

/-- What has no parts spells itself as a token. -/
theorem Spells.atom {d : Document} (writable : d.Writable) (simple : d.tokens = [.atom d])
    {cs : List Char} {ts : List Token} (ends : Ends cs) (spells : Spells ts cs) :
    Spells (.atom d :: ts) (d.atom ++ cs) := by
  cases writable with
  | null => exact .word rfl ends spells
  | bool b => cases b <;> exact .word rfl ends spells
  | number n => exact .number n ends spells
  | text value => exact .text value spells
  | list | record => simp [tokens] at simple

/-- Parts that spell their tokens do so together, with commas between them. -/
theorem Spells.intercalate {α : Type} {toks : α → List Token} {write : α → List Char} {xs : List α}
    (each : ∀ x ∈ xs, ∀ {cs : List Char} {ts : List Token}, Ends cs → Spells ts cs →
      Spells (toks x ++ ts) (write x ++ cs))
    {cs : List Char} {ts : List Token} (ends : Ends cs) (spells : Spells ts cs) :
    Spells ([.comma].intercalate (xs.map toks) ++ ts)
      ([','].intercalate (xs.map write) ++ cs) := by
  induction xs with
  | nil => exact spells
  | cons x xs ih =>
    obtain ⟨first, others⟩ := List.forall_mem_cons.mp each
    cases xs with
    | nil =>
      simpa only [List.map_singleton, List.intercalate_singleton] using first ends spells
    | cons y rest =>
      simp only [List.map_cons, List.intercalate_cons_cons, List.append_assoc,
        List.singleton_append] at ih ⊢
      -- A comma follows, so the first part ends there.
      exact first (ends_of_sign rfl) (.sign rfl (ih others))

/-- A name spells itself, and behind a colon its value follows. -/
theorem Spells.field {l : Layout} (apart : SetsApart l) (name : String) {cs : List Char}
    {ts : List Token} (spells : Spells ts cs) :
    Spells (.atom (.text name) :: .colon :: ts) (quote name ++ (l.colon ++ cs)) := by
  obtain ⟨blanks, colon, white⟩ := apart.colon
  rw [colon]
  exact .text name (.sign rfl (.blanks white spells))

theorem spells_simple {d : Document} (writable : d.Writable) (simple : d.tokens = [.atom d])
    {l : Layout} {level : Nat} (put : d.strokes l level = puts d.atom) {cs : List Char}
    {ts : List Token} (ends : Ends cs) (spells : Spells ts cs) :
    Spells (d.tokens ++ ts) (d.chars l level ++ cs) := by
  rw [chars, put, filterMap_puts, simple]
  exact .atom writable simple ends spells

/-- In each layout the characters of a document spell its tokens. -/
theorem spells_chars {l : Layout} (apart : SetsApart l) {d : Document} (writable : d.Writable)
    (level : Nat) {cs : List Char} {ts : List Token} (ends : Ends cs) (spells : Spells ts cs) :
    Spells (d.tokens ++ ts) (d.chars l level ++ cs) := by
  induction writable generalizing cs ts level with
  | null => exact spells_simple .null rfl rfl ends spells
  | bool b => exact spells_simple (.bool b) rfl rfl ends spells
  | number n => exact spells_simple (.number n) rfl rfl ends spells
  | text value => exact spells_simple (.text value) rfl rfl ends spells
  | @list items each ih =>
    cases items with
    | nil => exact .sign rfl (.sign rfl spells)
    | cons first rest =>
      rw [chars_list]
      simp only [tokens, itemTokens_eq, List.cons_append, List.append_assoc]
      -- Each part stands behind blanks, and so does the closing bracket.
      refine .sign rfl (.intercalate (fun item member => ?_)
        (ends_blanks (apart.newLine level) (ends_of_sign rfl))
        (.blanks (apart.newLine level) (.sign rfl spells)))
      intro cs ts ends spells
      rw [List.append_assoc]
      exact .blanks (apart.newLine _) (ih item member _ ends spells)
  | @record fields each ih =>
    cases fields with
    | nil => exact .sign rfl (.sign rfl spells)
    | cons first rest =>
      rw [chars_record]
      simp only [tokens, fieldTokens_eq, List.cons_append, List.append_assoc]
      refine .sign rfl (.intercalate (fun field member => ?_)
        (ends_blanks (apart.newLine level) (ends_of_sign rfl))
        (.blanks (apart.newLine level) (.sign rfl spells)))
      intro cs ts ends spells
      simp only [List.append_assoc, List.cons_append]
      exact .blanks (apart.newLine _) (.field apart field.1 (ih field member _ ends spells))

end Writers

section Runs

namespace State

theorem run_cons (s : State) (t : Token) (ts : List Token) :
    s.run (t :: ts) = (s.step t).bind fun s => s.run ts := by
  rw [run, List.foldlM_cons]
  rfl

/-- Runs through the parts of a list or a record. Before a part the state is `due`, behind it
`near`; a comma leads to the next part, and the closing token to the `whole`. -/
theorem run_parts {α : Type} {toks : α → List Token} {due : List α → State}
    {near : List α → α → State} {whole : List α → State} {close : Token} {xs : List α}
    (part : ∀ x ∈ xs, ∀ done ts, (due done).run (toks x ++ ts) = (near done x).run ts)
    (next : ∀ done x, (near done x).step .comma = some (due (x :: done)))
    (closing : ∀ done x, (near done x).step close = some (whole (x :: done).reverse))
    (nonempty : xs ≠ []) (done : List α) (ts : List Token) :
    (due done).run ([.comma].intercalate (xs.map toks) ++ close :: ts) =
      (whole (done.reverse ++ xs)).run ts := by
  induction xs generalizing done with
  | nil => contradiction
  | cons x xs ih =>
    obtain ⟨first, others⟩ := List.forall_mem_cons.mp part
    -- Behind the last part the closing token stands in the place of a comma.
    cases xs with
    | nil =>
      rw [List.map_singleton, List.intercalate_singleton, first, run_cons, closing, Option.bind_some,
        List.reverse_cons]
    | cons y rest =>
      have onward := ih others (by simp) (x :: done)
      rw [List.map_cons] at onward
      rw [List.map_cons, List.map_cons, List.intercalate_cons_cons, List.append_assoc,
        List.append_assoc, first, List.singleton_append, run_cons, next, Option.bind_some, onward,
        List.reverse_cons, List.append_assoc, List.singleton_append]

/-- The tokens of a document do not begin with the end of a list. -/
theorem run_listOpened (d : Document) (stack : List Frame) (ts : List Token) :
    (listOpened stack).run (d.tokens ++ ts) =
      (valueDue (.items [] :: stack)).run (d.tokens ++ ts) := by
  cases d <;> rfl

/-- Behind its tokens a document is finished. -/
theorem run_tokens (d : Document) (stack : List Frame) (ts : List Token) :
    (valueDue stack).run (d.tokens ++ ts) = (finished d stack).run ts := by
  induction d using Document.induction generalizing stack ts with
  | null | bool | number | text | unwritable => rfl
  | list items ih =>
    cases items with
    | nil => rfl
    | cons d rest =>
      have through := @run_parts _ tokens (fun done => valueDue (.items done :: stack))
        (fun done d => finished d (.items done :: stack)) (fun items => finished (.list items) stack)
        .listEnd (d :: rest) (fun d member done ts => ih d member _ ts) (fun _ _ => rfl)
        (fun _ _ => rfl) (by simp) [] ts
      -- Behind the beginning of a list its end might come, but the tokens of the first part do.
      obtain ⟨more, begins⟩ := intercalate_begins .comma d.tokens (rest.map tokens)
      rw [List.map_cons, begins, List.append_assoc, ← run_listOpened] at through
      rw [tokens, itemTokens_eq, List.cons_append, List.append_assoc, List.map_cons, begins,
        List.append_assoc, run_cons]
      exact through
  | record fields ih =>
    cases fields with
    | nil => rfl
    | cons field rest =>
      have through := @run_parts (String × Document)
        (fun f => .atom (.text f.1) :: .colon :: tokens f.2)
        (fun done => nameDue done stack) (fun done f => finished f.2 (.fields done f.1 :: stack))
        (fun fields => finished (.record fields) stack) .recordEnd (field :: rest)
        (fun f member done ts => ih f member (.fields done f.1 :: stack) ts) (fun _ _ => rfl)
        (fun _ _ => rfl) (by simp) [] ts
      obtain ⟨more, begins⟩ := intercalate_begins .comma
        (.atom (.text field.1) :: .colon :: tokens field.2)
        (rest.map fun f => .atom (.text f.1) :: .colon :: tokens f.2)
      rw [List.map_cons, begins] at through
      rw [tokens, fieldTokens_eq, List.cons_append, List.append_assoc, List.map_cons, begins, run_cons]
      exact through

end State

theorem ofTokens?_tokens (d : Document) : ofTokens? d.tokens = some d := by
  have through := State.run_tokens d [] []
  rw [List.append_nil] at through
  rw [ofTokens?, through]
  rfl

end Runs

/-- A text that spells the tokens of a document is read as this document. -/
theorem read?_of_spells {d : Document} {s : String} (spells : Spells d.tokens s.toList) :
    read? s = some d := by
  rw [read?, spells.tokens?_eq, Option.bind_some, ofTokens?_tokens]

/-- A document is read from what is written of it, in each layout. -/
theorem read?_write {d : Document} (writable : d.Writable) {l : Layout} (apart : SetsApart l) :
    read? (d.write l).text = some d := by
  refine read?_of_spells ?_
  have ends : Ends ['\n'] := @ends_blanks ['\n'] [] (by simp [isWhite]) (by simp [Ends])
  rw [text_write writable]
  simpa using spells_chars apart writable 0 ends (.white rfl .nil)

end Ripple.Document
