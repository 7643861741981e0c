import Ripple.Files.Path

/-!
Trees of files with symbolic links, and how a path finds its way in them. A path is followed step by
step from the root or from the working directory, and each link on the way is replaced by its
target. What is reached is named by its location, the names that lead to it from the root. Names are
strings of the operating system, which need not be texts. The whole of a path may have any length.
-/

namespace Ripple

/-- What stands at a place of a file tree. -/
inductive Node where
  | file (content : ByteArray)
  | link (target : OsString)
  /-- A directory. A name stands for its first entry in the list. -/
  | dir (entries : List (OsString × Node))

/-- The reason for which a path cannot be used. -/
inductive AccessError where
  | notFound
  | notDirectory
  | isDirectory
  | tooManyLinks
  | nameTooLong
  | nulInside
  | notText
  deriving DecidableEq, Repr

def AccessError.message : AccessError → String
  | notFound => "No such file or directory (os error 2)"
  | notDirectory => "Not a directory (os error 20)"
  | isDirectory => "Is a directory (os error 21)"
  | tooManyLinks => "Too many levels of symbolic links (os error 40)"
  | nameTooLong => "File name too long (os error 36)"
  | nulInside => "file name contained an unexpected NUL byte"
  | notText => "stream did not contain valid UTF-8"

namespace Node

/-- The node at a location below a node. No link is followed. -/
def at? : Node → List OsString → Option Node
  | node, [] => some node
  | dir entries, name :: rest => (entries.lookup name).bind fun child => child.at? rest
  | _, _ :: _ => none
termination_by structural _ location => location

/-- The entries of a directory with the node for one name replaced or added. -/
def setEntry (name : OsString) (node : Node) : List (OsString × Node) → List (OsString × Node)
  | [] => [(name, node)]
  | (n, old) :: rest =>
    if n = name then (name, node) :: rest else (n, old) :: setEntry name node rest

/-- Puts a node at a location. Directories on the way are made where there are none. -/
def put (new : Node) : Node → List OsString → Node
  | _, [] => new
  | dir entries, name :: rest =>
    dir (setEntry name (put new ((entries.lookup name).getD (dir [])) rest) entries)
  | _, name :: rest => dir [(name, put new (dir []) rest)]
termination_by structural _ location => location

/-- Takes away what stands at a location. -/
def erase : Node → List OsString → Node
  | dir entries, [name] => dir (entries.filter fun e => e.1 != name)
  | dir entries, name :: rest =>
    match entries.lookup name with
    | some child => dir (setEntry name (erase child rest) entries)
    | none => dir entries
  | node, _ => node
termination_by structural _ location => location

end Node

/-- A file tree together with the working directory, from which relative paths begin. -/
structure Files where
  top : Node
  workDir : List OsString

namespace Files

/-- The steps of a path. A slash at its end asks for a directory, just as a single dot does. -/
def steps (path : OsString) : List OsString :=
  let pieces := (Text.splitOn Path.slash path.bytes).map OsString.mk
  let asked : List OsString :=
    if pieces.getLast? = some ("" : OsString) ∧ 1 < pieces.length then ["."] else []
  pieces.filter (fun piece => piece != ("" : OsString)) ++ asked

/-- The number of bytes that a name may have. -/
def maxName : Nat := 255

/-- Follows steps from a location. A link is handed to `jump`, with the location from which its
target is to be followed and the steps that remain. -/
def follow (top : Node)
    (jump : List OsString → List OsString → Except AccessError (List OsString)) :
    List OsString → List OsString → Except AccessError (List OsString)
  | here, [] => .ok here
  | here, step :: rest =>
    match top.at? here with
    | some (.dir entries) =>
      if step = "." then follow top jump here rest
      else if step = ".." then follow top jump here.dropLast rest
      else if maxName < step.bytes.length then .error .nameTooLong
      else
        match entries.lookup step with
        | none => .error .notFound
        | some (.link target) =>
          jump (if Path.isAbsolute target then [] else here) (steps target ++ rest)
        | some _ => follow top jump (here ++ [step]) rest
    | _ => .error .notDirectory
termination_by structural _ todo => todo

/-- Follows steps from a location through at most `links` links. -/
def followLinks (top : Node) :
    Nat → List OsString → List OsString → Except AccessError (List OsString)
  | 0 => follow top fun _ _ => .error .tooManyLinks
  | links + 1 => follow top (followLinks top links)

/-- The number of links that a path may lead through. -/
def maxLinks : Nat := 40

/-- The location to which a path leads. -/
def locate (fs : Files) (path : OsString) : Except AccessError (List OsString) :=
  if path.bytes.contains 0 then .error .nulInside
  else if path.bytes.isEmpty then .error .notFound
  else followLinks fs.top maxLinks (if Path.isAbsolute path then [] else fs.workDir) (steps path)

/-- The bytes of the file at a location. -/
def readAt (fs : Files) (location : List OsString) : Except AccessError ByteArray :=
  match fs.top.at? location with
  | some (.file content) => .ok content
  | some (.dir _) => .error .isDirectory
  | _ => .error .notFound

/-- The bytes of the file to which a path leads. -/
def read (fs : Files) (path : OsString) : Except AccessError ByteArray :=
  fs.locate path >>= fs.readAt

/-- Reads bytes as a text. -/
def decode (bytes : ByteArray) : Except AccessError String :=
  match String.fromUTF8? bytes with
  | some text => .ok text
  | none => .error .notText

/-- The text of the file to which a path leads. -/
def readText (fs : Files) (path : OsString) : Except AccessError String :=
  fs.read path >>= decode

/-- Whether a path leads to a directory. -/
def isDir (fs : Files) (path : OsString) : Bool :=
  match fs.locate path with
  | .ok location => match fs.top.at? location with
    | some (.dir _) => true
    | _ => false
  | .error _ => false

/-- Whether a path leads to a file. -/
def isFile (fs : Files) (path : OsString) : Bool :=
  match fs.locate path with
  | .ok location => match fs.top.at? location with
    | some (.file _) => true
    | _ => false
  | .error _ => false

/-- A location written as an absolute path. -/
def pathOf (location : List OsString) : OsString := ⟨[Path.slash]⟩ ++ Path.ofComponents location

/-- A tree whose working directory is empty. -/
def emptyAt (workDir : List OsString) : Files := ⟨Node.put (.dir []) (.dir []) workDir, workDir⟩

/-- Where a path would stand if nothing on the way were a link. -/
def plainLocation (fs : Files) (path : OsString) : List OsString :=
  if Path.isAbsolute path then Path.components path else fs.workDir ++ Path.components path

/-- The place that something written to a path takes: that of the file to which the path leads, else
the last name in the directory to which the rest of the path leads. -/
def writeLocation (fs : Files) (path : OsString) : List OsString :=
  match fs.locate path with
  | .ok location => location
  | .error _ =>
    let plain := fs.plainLocation path
    match fs.locate (pathOf plain.dropLast), plain.getLast? with
    | .ok location, some name => location ++ [name]
    | _, _ => plain

/-- Puts a node in the place of whatever stands at a path. -/
def place (fs : Files) (path : OsString) (node : Node) : Files :=
  { fs with top := Node.put node fs.top (fs.plainLocation path) }

/-- Writes a file or a link, or makes a directory unless it is there already. -/
def write (fs : Files) (path : OsString) (node : Node) : Files :=
  match node with
  | .file _ => { fs with top := Node.put node fs.top (fs.writeLocation path) }
  | .link _ => fs.place path node
  | .dir _ => if fs.isDir path then fs else fs.place path node

/-- Takes away the file, the link or the whole directory at a path; none if nothing is there. -/
def delete? (fs : Files) (path : OsString) : Option Files :=
  let plain := fs.plainLocation path
  let location := match fs.locate (pathOf plain.dropLast), plain.getLast? with
    | .ok location, some name => location ++ [name]
    | _, _ => plain
  (fs.top.at? location).map fun _ => { fs with top := fs.top.erase location }

end Files

end Ripple
