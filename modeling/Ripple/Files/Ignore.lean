import Ripple.Files.Glob
import Ripple.Text.Lines

/-!
Ignore files: lists of wildcards, one on a line, for what is to be left out of a directory. An
exclamation mark turns a rule into one that keeps what it matches, and the last rule that matches
decides.
-/

namespace Ripple

/-- A line of an ignore file. -/
structure IgnoreRule where
  glob : Glob
  /-- The rule keeps what it matches. -/
  keeps : Bool
  /-- The rule speaks of directories only. -/
  dirsOnly : Bool

/-- What a rule says of a path. -/
inductive Verdict where
  | ignored | kept
  deriving DecidableEq, Repr

namespace IgnoreRule

/-- A line without its marks. -/
structure Marked where
  keeps : Bool
  /-- The wildcard begins at the directory of the ignore file. -/
  anchored : Bool
  body : List Char

/-- Takes the marks from the beginning of a line. A mark behind a backslash stands for itself. -/
def unmark (line : List Char) : Marked :=
  match line with
  | '\\' :: '!' :: rest => ⟨false, false, '!' :: rest⟩
  | '\\' :: '#' :: rest => ⟨false, false, '#' :: rest⟩
  | '!' :: '/' :: rest => ⟨true, true, rest⟩
  | '!' :: rest => ⟨true, false, rest⟩
  | '/' :: rest => ⟨false, true, rest⟩
  | _ => ⟨false, false, line⟩

/-- Takes a slash from the end of a line, together with a backslash before it. -/
def unslash (body : List Char) : Bool × List Char :=
  match body.reverse with
  | '/' :: '\\' :: rest => (true, rest.reverse)
  | '/' :: rest => (true, rest.reverse)
  | _ => (false, body)

/-- The wildcard for the whole path. One without a slash may match at any depth, and one for
everything below a directory does not match the directory. -/
def spread (anchored : Bool) (body : List Char) : List Char :=
  let body := if anchored || body.contains '/' || body = ['*', '*'] then body
    else "**/".toList ++ body
  if "/**".toList.isSuffixOf body then body ++ ['/', '*'] else body

/-- The rule of a line; none for a comment, a blank line, and a line that is no wildcard. -/
def ofLine? (line : List Char) : Option IgnoreRule :=
  if line.head? = some '#' then none
  else
    let line := if ['\\', ' '].isSuffixOf line then line else Text.trimEnd line
    if line.isEmpty then none
    else
      let marked := unmark line
      let (dirsOnly, body) := unslash marked.body
      match Glob.ofText (spread marked.anchored body) with
      | .ok glob => some ⟨glob, marked.keeps, dirsOnly⟩
      | .error _ => none

/-- Cuts bytes behind each line feed. -/
def byteLines (bytes : ByteArray) : List ByteArray :=
  (bytes.toList.foldr
    (fun (b : UInt8) pieces =>
      if b = 10 then [b] :: pieces
      else match pieces with
        | piece :: rest => (b :: piece) :: rest
        | [] => [[b]])
    []).map fun piece => ⟨piece.toArray⟩

/-- The lines of an ignore file up to the first that is no text. Byte-order marks at its beginning
are dropped. -/
def linesOf (bytes : ByteArray) : List (List Char) :=
  let texts := (byteLines bytes).map String.fromUTF8? |>.takeWhile (·.isSome)
  let lines := texts.map fun t => Text.stripLineEnd (t.getD "").toList
  match lines with
  | first :: rest => first.dropWhile (· = '\ufeff') :: rest
  | [] => []

/-- The rules of an ignore file. -/
def ofBytes (bytes : ByteArray) : List IgnoreRule := (linesOf bytes).filterMap ofLine?

/-- What rules say of a path, which is relative to the directory of their file. -/
def verdict? (rules : List IgnoreRule) (path : OsString) (isDir : Bool) : Option Verdict :=
  let deciding := rules.reverse.find? fun r => (isDir || !r.dirsOnly) && r.glob.isMatch path
  deciding.map fun r => if r.keeps then .kept else .ignored

end IgnoreRule

end Ripple
