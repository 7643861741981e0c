import Ripple.Files.Ignore
import Ripple.Files.Tree

/-!
The files below a directory. Entries come in the order of their names, and what a directory holds
comes in its place. Links are neither followed nor listed, and names that begin with a dot are
hidden.
-/

namespace Ripple

/-- What a walk leaves out. -/
structure WalkFilter where
  /-- Names of directories that are not entered. -/
  skipDirs : List String := []
  /-- The accepted extensions, with or without a leading dot; if there are none, every file is
  accepted. -/
  extensions : List String := []
  /-- The greatest size of a file, in bytes. -/
  maxFileSize : Option Nat := none
  /-- Ignore files are taken into account. -/
  honourIgnoreFiles : Bool := false
  /-- The components, from the root on, of a file that is not listed. -/
  exclude : Option (List OsString) := none

/-- The rules of an ignore file, with the number of components down to its directory. -/
structure IgnoreScope where
  depth : Nat
  rules : List IgnoreRule

namespace WalkFilter

def acceptsExtension (f : WalkFilter) (path : OsString) : Bool :=
  f.extensions.isEmpty ||
    match Path.textExtension? path with
    | none => false
    | some ext => f.extensions.any fun e =>
      (e.toList.dropWhile (· = '.')).map Char.toLower = ext.toList.map Char.toLower

def acceptsSize (f : WalkFilter) (size : Nat) : Bool :=
  match f.maxFileSize with
  | none => true
  | some limit => size ≤ limit

/-- Whether the file with the given location and content is listed. -/
def acceptsFile (f : WalkFilter) (location : List OsString) (content : ByteArray) : Bool :=
  f.exclude != some location && f.acceptsExtension (location.getLast?.getD "") &&
    f.acceptsSize content.size

/-- Whether a directory of the given name is not entered. -/
def skips (f : WalkFilter) (name : OsString) : Bool := name.text?.any f.skipDirs.contains

/-- What the ignore files say of an entry, the nearest of them first. -/
def verdict? (scopes : List IgnoreScope) (below : List OsString) (isDir : Bool) : Option Verdict :=
  scopes.findSome? fun s =>
    IgnoreRule.verdict? s.rules (Path.ofComponents (below.drop s.depth)) isDir

/-- Whether an entry is taken into account. Below the beginning of the walk its components are
`below`. -/
def admits (f : WalkFilter) (scopes : List IgnoreScope) (below : List OsString) (node : Node) :
    Bool :=
  let name := below.getLast?.getD ""
  let isDir := match node with
    | .dir _ => true
    | _ => false
  let shown := match verdict? scopes below isDir with
    | some .ignored => false
    | some .kept => true
    | none => name.bytes.head? != some Path.dot
  shown && !(isDir && f.skips name)

end WalkFilter

namespace Files

/-- The name of ignore files. -/
def ignoreFile : OsString := ".gitignore"

/-- The rules of the ignore file in the directory at a location. A link in its place is followed. -/
def ignoreRules (fs : Files) (location : List OsString) : List IgnoreRule :=
  match fs.read (pathOf (location ++ [ignoreFile])) with
  | .ok bytes => IgnoreRule.ofBytes bytes
  | .error _ => []

/-- Adds the ignore file of a directory to those above it. -/
def scopesAt (fs : Files) (f : WalkFilter) (root below : List OsString)
    (scopes : List IgnoreScope) : List IgnoreScope :=
  if f.honourIgnoreFiles then ⟨below.length, fs.ignoreRules (root ++ below)⟩ :: scopes
  else scopes

mutual

/-- The accepted files at a node, each by its components below the root. -/
def walkNode (fs : Files) (f : WalkFilter) (root : List OsString) (scopes : List IgnoreScope)
    (below : List OsString) : Node → List (List OsString)
  | .file content => if f.acceptsFile (root ++ below) content then [below] else []
  | .link _ => []
  | .dir entries =>
    let found := walkEntries fs f root (fs.scopesAt f root below scopes) below entries
    (found.mergeSort fun a b => decide (a.1 ≤ b.1)).flatMap (·.2)

/-- The accepted files of each entry of a directory. -/
def walkEntries (fs : Files) (f : WalkFilter) (root : List OsString) (scopes : List IgnoreScope)
    (below : List OsString) : List (OsString × Node) → List (OsString × List (List OsString))
  | [] => []
  | (name, node) :: rest =>
    let here := below ++ [name]
    let found := if f.admits scopes here node then walkNode fs f root scopes here node else []
    (name, found) :: walkEntries fs f root scopes below rest

end

/-- The files below the directory at a location, or the file itself that is there, each by its
components below it. -/
def walk (fs : Files) (f : WalkFilter) (root : List OsString) : List (List OsString) :=
  match fs.top.at? root with
  | some node => fs.walkNode f root [] [] node
  | none => []

end Files

end Ripple
