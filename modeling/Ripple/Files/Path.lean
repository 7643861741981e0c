import Ripple.Text.OsString

/-!
Paths: their components, the name at their end and its parts.
-/

namespace Ripple.Path

/-- The byte between two components. -/
def slash : UInt8 := 47

/-- The byte before the extension of a name. -/
def dot : UInt8 := 46

/-- The components between slashes. Empty ones and single dots say nothing and are dropped. -/
def components (path : OsString) : List OsString :=
  ((Text.splitOn slash path.bytes).filter fun c => !(c.isEmpty || c = [dot])).map OsString.mk

/-- Whether a path begins at the root of all files. -/
def isAbsolute (path : OsString) : Bool := path.bytes.head? = some slash

/-- The last component, unless the path ends by going up. -/
def fileName? (path : OsString) : Option OsString :=
  match (components path).getLast? with
  | some name => if name = ".." then none else some name
  | none => none

/-- Cuts a name at its last dot. A dot at the beginning of a name does not count. -/
def splitName (name : OsString) : OsString × Option OsString :=
  let reversed := name.bytes.reverse
  let tail := reversed.takeWhile (· ≠ dot)
  match reversed.drop tail.length with
  | _ :: b :: before => (⟨(b :: before).reverse⟩, some ⟨tail.reverse⟩)
  | _ => (name, none)

/-- What stands behind the last dot of the file name. -/
def extension? (path : OsString) : Option OsString :=
  (fileName? path).bind fun name => (splitName name).2

/-- The file name without its extension. -/
def stem? (path : OsString) : Option OsString :=
  (fileName? path).map fun name => (splitName name).1

/-- The extension, if it is a text. -/
def textExtension? (path : OsString) : Option String := (extension? path).bind OsString.text?

/-- The stem, if it is a text. -/
def textStem? (path : OsString) : Option String := (stem? path).bind OsString.text?

/-- A path from its components. -/
def ofComponents (cs : List OsString) : OsString := ⟨[slash].intercalate (cs.map (·.bytes))⟩

/-- Continues a path by another one. An absolute one stands for itself. -/
def join (base path : OsString) : OsString :=
  if isAbsolute path then path
  else if base.bytes.isEmpty || base.bytes.getLast? = some slash then base ++ path
  else base ++ ⟨[slash]⟩ ++ path

/-- Paths, given by their components, in ascending order, each once. -/
def ascending (paths : List (List OsString)) : List (List OsString) :=
  (paths.mergeSort fun a b => decide (¬ b < a)).foldr
    (fun p rest => if rest.head? = some p then rest else p :: rest) []

end Ripple.Path
