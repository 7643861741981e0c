import Ripple.Language.Table
import Ripple.Proofs.Language.Templates

/-!
The import forms of the built-in languages, once as the patterns that find imports and once as the
templates for an import of a given module. Both sides are put together from the same parts, so that
what they share can be seen.
-/

namespace Ripple

namespace CharSet

theorem mem_single {c d : Char} : (single d).mem c = true ↔ c = d := by
  simp only [single, mem, Bool.and_eq_true, decide_eq_true_eq]
  constructor
  · exact fun bounds => Char.le_antisymm bounds.2 bounds.1
  · rintro rfl
    exact ⟨c.le_refl, c.le_refl⟩

theorem mem_unions {sets : List CharSet} {c : Char} :
    (unions sets).mem c = true ↔ ∃ s ∈ sets, s.mem c = true := by
  induction sets with
  | nil => simp [unions, mem]
  | cons s sets ih =>
    rw [unions] at ih
    simp [unions, mem, ih]

end CharSet

namespace Pattern

/-- With the characters written out, a pattern can be evaluated. -/
theorem ofText_eq {source : String} {cs : List Char} (text : source = String.ofList cs) :
    ofText source = ofChars source cs := by
  have chars : source.toList = cs := by rw [text, String.toList_ofList]
  rw [ofText, chars]

theorem joined {s t : String} {cs ds : List Char} (first : s = String.ofList cs)
    (second : t = String.ofList ds) : s ++ t = String.ofList (cs ++ ds) := by
  rw [first, second, String.ofList_append]

end Pattern

namespace Language

open Regex

namespace Part

/-- Blanks within a line. -/
def blank : CharSet := .unions [.single ' ', .single '\t']

/-- Any characters of a set, or none. -/
def many (s : CharSet) : Regex := .rep (.set s) 0 none true

/-- At least one character of a set. -/
def several (s : CharSet) : Regex := .rep (.set s) 1 none true

def maybe (r : Regex) : Regex := .rep r 0 (some 1) true

def loop (r : Regex) : Regex := .rep r 0 none true

def letters (s : String) : List Regex := s.toList.map .char

/-- The beginning of a line, with its indentation. -/
def indent : List Regex := [.empty, .assert .lineStart, many blank]

def edge : Regex := .assert (.word .boundary false)

/-- The part of a path before its last component, if there is one: characters of a set, and a
separator. -/
def leading (s : CharSet) (separator : Char) : Regex := maybe (.seq (many s) (.char separator))

/-- All characters but those of a list. -/
def except (cs : List Char) : CharSet := .compl (.unions (cs.map .single))

theorem mem_except {cs : List Char} {c : Char} : (except cs).mem c = true ↔ c ∉ cs := by
  have member : (CharSet.unions (cs.map .single)).mem c = true ↔ c ∈ cs := by
    simp [CharSet.mem_unions, CharSet.mem_single]
  rw [except, CharSet.mem, Bool.not_eq_true', Bool.eq_false_iff, ne_eq, member]

end Part

open Language.Part

namespace Python

def dotted : CharSet := .unions [.word, .single '.']

def fromFront : List Regex := indent ++ letters "from" ++ [several blank]

def fromBack : List Regex := [several blank] ++ letters "import" ++ [edge]

def importFront : List Regex := indent ++ letters "import" ++ [several blank]

/-- The name under which a module is imported. -/
def asName : Regex := maybe (seqs ([several blank] ++ letters "as" ++ [several blank, several .word]))

/-- A module of a list. -/
def item : List Regex := [several dotted, asName]

def comma : List Regex := [many blank, .char ',', many blank]

def list : Regex := seqs (item ++ [loop (seqs (comma ++ item))])

theorem fromPattern_regex :
    fromPattern.regex = seqs (fromFront ++ group 1 (several dotted) :: fromBack) := by
  rw [fromPattern, Pattern.ofText_eq rfl]
  rfl

theorem importPattern_regex : importPattern.regex = seqs (importFront ++ group 1 list :: []) := by
  rw [importPattern, Pattern.ofText_eq (Pattern.joined rfl rfl)]
  rfl

/-- What the templates have before and behind the name. -/
def forms : List Language.Form :=
  [(fromFront ++ [leading dotted '.'], fromBack),
   (importFront ++ [loop (seqs (item ++ comma)), leading dotted '.'], [edge]),
   (fromFront ++ [several dotted, several blank] ++ letters "import" ++
      [several blank, maybe (.char '('), many blank, loop (seqs ([several .word, asName] ++ comma))],
    [edge])]

theorem from_shapes : Shapes templates[0] forms[0] :=
  shapes_of r"(?m)^[ \t]*from[ \t]+(?:[\w.]*\.)" '?' r"[ \t]+import\b" 15 9
    rfl rfl (by decide) (fun _ _ => rfl) (fun _ _ => rfl) nofun (fun _ _ => rfl)
    (fun _ => rfl) rfl rfl (by decide)

theorem import_shapes : Shapes templates[1] forms[1] :=
  shapes_of
    r"(?m)^[ \t]*import[ \t]+(?:[\w.]+(?:[ \t]+as[ \t]+\w+)?[ \t]*,[ \t]*)*(?:[\w.]*\.)" '?'
    r"\b" 38 1
    rfl rfl (by decide) (fun _ _ => rfl) (fun _ _ => rfl) nofun (fun _ _ => rfl)
    (fun _ => rfl) rfl rfl (by decide)

theorem member_shapes : Shapes templates[2] forms[2] :=
  shapes_of
    r"(?m)^[ \t]*from[ \t]+[\w.]+[ \t]+import[ \t]+\(?[ \t]*(?:\w+(?:[ \t]+as[ \t]+\w+)?[ \t]*,[ \t]*)"
    '*' r"\b" 46 1
    rfl rfl (by decide) (fun _ _ => rfl) (fun _ _ => rfl) nofun (fun _ _ => rfl)
    (fun _ => rfl) rfl rfl (by decide)

theorem shaped : Language.python.Shaped forms :=
  .cons from_shapes <| .cons import_shapes <| .cons member_shapes .nil

theorem formed : Language.python.Formed forms := shaped.formed

end Python

namespace JavaScript

def quote : Regex := .set (.unions [.single '\'', .single '"'])

def plain : CharSet := except ['\'', '"', '\n']

def fromFront : List Regex :=
  indent ++ [alts [seqs (letters "import"), seqs (letters "export"), .char '\x7d'],
    .rep (.set plain) 0 none false, edge] ++ letters "from" ++ [many blank, quote]

def bareFront : List Regex := indent ++ letters "import" ++ [many blank, quote]

def requireFront : List Regex := [edge] ++ letters "require(" ++ [many blank, quote]

def requireBack : List Regex := [quote, many blank, .char ')']

/-- The extension of a source. -/
def extension : Regex :=
  seqs [.char '.', maybe (.set (.unions [.single 'c', .single 'm'])),
    .set (.unions [.single 'j', .single 't']), .char 's', maybe (.char 'x')]

theorem fromPattern_regex :
    fromPattern.regex = seqs (fromFront ++ group 1 (several plain) :: [quote]) := by
  rw [fromPattern, Pattern.ofText_eq rfl]
  rfl

theorem barePattern_regex :
    barePattern.regex = seqs (bareFront ++ group 1 (several plain) :: [quote]) := by
  rw [barePattern, Pattern.ofText_eq rfl]
  rfl

theorem requirePattern_regex :
    requirePattern.regex = seqs (requireFront ++ group 1 (several plain) :: requireBack) := by
  rw [requirePattern, Pattern.ofText_eq rfl]
  rfl

def forms : List Language.Form :=
  [(fromFront ++ [leading plain '/'], [maybe extension, quote]),
   (bareFront ++ [leading plain '/'], [maybe extension, quote]),
   (requireFront ++ [leading plain '/'], maybe extension :: requireBack)]

theorem from_shapes : Shapes templates[0] forms[0] :=
  shapes_of
    r#"(?m)^[ \t]*(?:import|export|\})[^'"\n]*?\bfrom[ \t]*['"](?:[^'"\n]*/)"# '?'
    r#"(?:\.[cm]?[jt]sx?)?['"]"# 36 11
    rfl rfl (by decide) (fun _ _ => rfl) (fun _ _ => rfl) nofun (fun _ _ => rfl)
    (fun _ => rfl) rfl rfl (by decide)

theorem bare_shapes : Shapes templates[1] forms[1] :=
  shapes_of r#"(?m)^[ \t]*import[ \t]*['"](?:[^'"\n]*/)"# '?' r#"(?:\.[cm]?[jt]sx?)?['"]"# 18 11
    rfl rfl (by decide) (fun _ _ => rfl) (fun _ _ => rfl) nofun (fun _ _ => rfl)
    (fun _ => rfl) rfl rfl (by decide)

theorem require_shapes : Shapes templates[2] forms[2] :=
  shapes_of r#"\brequire\([ \t]*['"](?:[^'"\n]*/)"# '?'
    r#"(?:\.[cm]?[jt]sx?)?['"][ \t]*\)"# 17 14
    rfl rfl (by decide) (fun _ _ => rfl) (fun _ _ => rfl) nofun (fun _ _ => rfl)
    (fun _ => rfl) rfl rfl (by decide)

theorem shaped : Language.javaScript.Shaped forms :=
  .cons from_shapes <| .cons bare_shapes <| .cons require_shapes .nil

theorem formed : Language.javaScript.Formed forms := shaped.formed

end JavaScript

namespace Go

def plain : CharSet := except ['"', '\n']

def importFront : List Regex :=
  indent ++ letters "import" ++
    [several blank, maybe (.seq (several Python.dotted) (several blank)), .char '"']

def blockFront : List Regex := indent ++ letters "import" ++ [many blank, .char '(']

theorem importPattern_regex :
    importPattern.regex = seqs (importFront ++ group 1 (several plain) :: [char '"']) := by
  rw [importPattern, Pattern.ofText_eq rfl]
  rfl

theorem importBlockPattern_regex : importBlockPattern.regex =
    seqs (blockFront ++ group 1 (many (.compl (.single ')'))) :: [char ')']) := by
  rw [importBlockPattern, Pattern.ofText_eq rfl]
  rfl

theorem quotedPattern_regex :
    quotedPattern.regex = seqs ([char '"'] ++ group 1 (several plain) :: [char '"']) := by
  rw [quotedPattern, Pattern.ofText_eq rfl]
  rfl

def forms : List Language.Form :=
  [(importFront ++ [leading plain '/'], [.char '"']),
   (blockFront ++ [many (.compl (.single ')')), .char '"', leading plain '/'], [.char '"'])]

theorem import_shapes : Shapes templates[0] forms[0] :=
  shapes_of r#"(?m)^[ \t]*import[ \t]+(?:[\w.]+[ \t]+)?"(?:[^"\n]*/)"# '?' "\"" 25 1
    rfl rfl (by decide) (fun _ _ => rfl) (fun _ _ => rfl) nofun (fun _ _ => rfl)
    (fun _ => rfl) rfl rfl (by decide)

theorem block_shapes : Shapes templates[1] forms[1] :=
  shapes_of r#"(?m)^[ \t]*import[ \t]*\([^)]*"(?:[^"\n]*/)"# '?' "\"" 21 1
    rfl rfl (by decide) (fun _ _ => rfl) (fun _ _ => rfl) nofun (fun _ _ => rfl)
    (fun _ => rfl) rfl rfl (by decide)

theorem shaped : Language.go.Shaped forms :=
  .cons import_shapes <| .cons block_shapes .nil

theorem formed : Language.go.Formed forms := shaped.formed

end Go

namespace Java

def importFront : List Regex :=
  indent ++ letters "import" ++ [several blank, maybe (seqs (letters "static" ++ [several blank]))]

def importBack : List Regex := [many blank, .char ';']

def name : Regex := .seq (several Python.dotted) (maybe (.seq (.char '.') (.char '*')))

theorem importPattern_regex :
    importPattern.regex = seqs (importFront ++ group 1 name :: importBack) := by
  rw [importPattern, Pattern.ofText_eq rfl]
  rfl

def forms : List Language.Form :=
  [(importFront ++ [loop (.seq (several .word) (.char '.'))],
    loop (.seq (.char '.') (several (.unions [.word, .single '*']))) :: importBack)]

theorem import_shapes : Shapes templates[0] forms[0] :=
  shapes_of r"(?m)^[ \t]*import[ \t]+(?:static[ \t]+)?(?:\w+\.)" '*' r"(?:\.[\w*]+)*[ \t]*;" 28 9
    rfl rfl (by decide) (fun _ _ => rfl) (fun _ _ => rfl) nofun (fun _ _ => rfl)
    (fun _ => rfl) rfl rfl (by decide)

theorem shaped : Language.java.Shaped forms :=
  .cons import_shapes .nil

theorem formed : Language.java.Formed forms := shaped.formed

end Java

namespace CFamily

def includeFront : List Regex :=
  indent ++ [.char '#', many blank] ++ letters "include" ++ [many blank]

theorem systemPattern_regex : systemPattern.regex =
    seqs ((includeFront ++ [char '<']) ++ group 1 (several (except ['>', '\n'])) :: [char '>']) := by
  rw [systemPattern, Pattern.ofText_eq rfl]
  rfl

theorem quotedPattern_regex : quotedPattern.regex =
    seqs ((includeFront ++ [char '"']) ++ group 1 (several (except ['"', '\n'])) :: [char '"']) := by
  rw [quotedPattern, Pattern.ofText_eq rfl]
  rfl

def forms : List Language.Form :=
  [(includeFront ++ [.set (.unions [.single '<', .single '"']), leading (except ['>', '"', '\n']) '/'],
    [.char '.', several .word, .set (.unions [.single '>', .single '"'])])]

theorem include_shapes : Shapes templates[0] forms[0] :=
  shapes_of r#"(?m)^[ \t]*#[ \t]*include[ \t]*[<"](?:[^>"\n]*/)"# '?' r#"\.\w+[>"]"# 22 4
    rfl rfl (by decide) (fun _ _ => rfl) (fun _ _ => rfl) nofun (fun _ _ => rfl)
    (fun _ => rfl) rfl rfl (by decide)

theorem shaped : Language.cFamily.Shaped forms :=
  .cons include_shapes .nil

theorem formed : Language.cFamily.Formed forms := shaped.formed

end CFamily

namespace Rust

def visibility : Regex :=
  maybe (seqs (letters "pub" ++
    [maybe (seqs [.char '(', many (.compl (.single ')')), .char ')']), several blank]))

def forms : List Language.Form :=
  [(indent ++ [visibility] ++ letters "use" ++ [several blank, many (.compl (.single ';')), edge],
    [edge]),
   (indent ++ [visibility] ++ letters "mod" ++ [several blank], [many blank, .char ';'])]

theorem use_shapes : Shapes templates[0] forms[0] :=
  shapes_at_edge r"(?m)^[ \t]*(?:pub(?:\([^)]*\))?[ \t]+)?use[ \t]+[^;]*" r"\b" 26 1
    rfl rfl (by decide) (fun _ _ => rfl) (fun _ _ => rfl) (fun _ => rfl) rfl rfl
    (by decide)

theorem mod_shapes : Shapes templates[1] forms[1] :=
  shapes_of r"(?m)^[ \t]*(?:pub(?:\([^)]*\))?[ \t]+)?mod[ \t]" '+' r"[ \t]*;" 23 3
    rfl rfl (by decide) (fun _ _ => rfl) (fun _ _ => rfl) nofun (fun _ _ => rfl)
    (fun _ => rfl) rfl rfl (by decide)

theorem shaped : Language.rust.Shaped forms :=
  .cons use_shapes <| .cons mod_shapes .nil

theorem formed : Language.rust.Formed forms := shaped.formed

end Rust

theorem builtin_cases {l : Language} (member : l ∈ LanguageTable.builtin.languages) :
    l = python ∨ l = javaScript ∨ l = go ∨ l = rust ∨ l = java ∨ l = cFamily := by
  have all : LanguageTable.builtin.languages = [python, javaScript, go, rust, java, cFamily] := rfl
  rw [all] at member
  simpa only [List.mem_cons, List.not_mem_nil, or_false] using member

/-- The forms of the templates of a built-in language. -/
theorem builtin_shaped {l : Language} (member : l ∈ LanguageTable.builtin.languages) :
    ∃ forms, l.Shaped forms ∧ ∀ form ∈ forms,
      (∀ r ∈ form.1 ++ form.2, r.steady = true) ∧ partsBound (form.1 ++ form.2) ≤ 2000000 := by
  rcases builtin_cases member with rfl | rfl | rfl | rfl | rfl | rfl
  · exact ⟨_, Python.shaped, by decide⟩
  · exact ⟨_, JavaScript.shaped, by decide⟩
  · exact ⟨_, Go.shaped, by decide⟩
  · exact ⟨_, Rust.shaped, by decide⟩
  · exact ⟨_, Java.shaped, by decide⟩
  · exact ⟨_, CFamily.shaped, by decide⟩

theorem builtin_formed {l : Language} (member : l ∈ LanguageTable.builtin.languages) :
    ∃ forms, l.Formed forms ∧ ∀ form ∈ forms, ∀ r ∈ form.1 ++ form.2, r.steady = true := by
  obtain ⟨forms, shaped, fine⟩ := builtin_shaped member
  exact ⟨forms, shaped.formed, fun form listed => (fine form listed).1⟩

end Language

end Ripple
