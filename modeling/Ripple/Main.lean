import Ripple.Command.Run

/-!
The program itself. It takes a picture of the files that a command line may concern, runs the
command on it, and prints the outcome.
-/

namespace Ripple.Program

/-- Runs an action that may fail; a failure counts as no answer. -/
def attempt {α : Type} (action : IO α) : IO (Option α) := do
  try return some (← action) catch _ => return none

/-- The file, the link or the whole directory at a path. A link is pictured with the place to which
it leads. -/
partial def picture (path : String) : IO (Option Node) := do
  let here := (← IO.currentDir) / path
  match ← attempt here.symlinkMetadata with
  | none => return none
  | some info =>
    match info.type with
    | .file => return (← attempt (IO.FS.readBinFile here)).map .file
    | .symlink =>
      return (← attempt (IO.FS.realPath here)).map fun target => .link (.ofText target.toString)
    | .dir =>
      let listed := (← attempt here.readDir).getD #[]
      let mut entries := []
      for entry in listed do
        if let some node ← picture (path ++ "/" ++ entry.fileName) then
          entries := (.ofText entry.fileName, node) :: entries
      return some (.dir entries)
    | .other => return none

/-- Adds what stands at a path, and at the place to which it leads. What the system tells of itself
comes as texts, so a path that is none is left alone. -/
def addPath (fs : Files) (path : OsString) : IO Files := do
  match path.text? with
  | none => return fs
  | some text =>
    match ← attempt (IO.FS.realPath text) with
    | none => return fs
    | some target =>
      let real := target.toString
      match ← picture real with
      | none => return fs
      | some node =>
        let fs := fs.place real node
        match fs.locate path with
        | .ok _ => return fs
        | .error _ => return fs.place path (.link real)

/-- The directory for the settings of the user. -/
def userDir : IO (Option OsString) := do
  match ← IO.getEnv "XDG_CONFIG_HOME" with
  | some dir => if Path.isAbsolute dir then return some (.ofText dir) else homeDir
  | none => homeDir
where
  /-- The usual directory, below that of the user. -/
  homeDir : IO (Option OsString) := do
    return (← IO.getEnv "HOME").map fun home => Path.join home ".config"

/-- The paths that a command line may concern. -/
def concerned (args : List OsString) (userDir : Option OsString) : List OsString :=
  match Command.parse args with
  | .error _ => []
  | .ok i =>
    let settings := i.config.toList ++ Settings.candidates userDir
    settings ++ match i.request with
      | .dependencies file root _ => root.toList ++ [file]
      | .impact file root _ => [root, file]

/-- The files that a command line may concern. -/
def surroundings (args : List OsString) (userDir : Option OsString) : IO Files := do
  let workDir := Path.components (← IO.currentDir).toString
  (concerned args userDir).foldlM addPath (Files.emptyAt workDir)

end Ripple.Program

/-- Runs the command line. -/
def main (args : List String) : IO UInt32 := do
  let words := args.map Ripple.OsString.ofText
  let userDir ← Ripple.Program.userDir
  let fs ← Ripple.Program.surroundings words userDir
  let outcome := Ripple.Command.run fs userDir words
  (← IO.getStderr).putStr outcome.stderr
  (← IO.getStdout).putStr outcome.stdout
  return UInt32.ofNat outcome.exit
