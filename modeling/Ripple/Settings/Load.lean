import Ripple.Files.Tree
import Ripple.Settings.OfToml

/-!
Settings files: where they are looked for, and how they are read.
-/

namespace Ripple

/-- The reason for which a settings file cannot be used. -/
inductive LoadError where
  | unreadable (path : OsString) (cause : AccessError)
  | unparsable (path : OsString) (cause : Toml.Error)
  deriving DecidableEq, Repr

namespace LoadError

def message : LoadError → String
  | unreadable path _ => "Failed to read config file " ++ path.display
  | unparsable path _ => "Failed to parse config file " ++ path.display

def cause : LoadError → String
  | unreadable _ cause => cause.message
  | unparsable _ cause => "TOML parse error: " ++ cause.message

end LoadError

namespace Settings

/-- Reads the settings of a file. -/
def load (fs : Files) (path : OsString) : Except LoadError Settings :=
  match fs.readText path with
  | .error cause => .error (.unreadable path cause)
  | .ok text =>
    match Toml.parse text >>= Settings.ofToml with
    | .ok settings => .ok settings
    | .error cause => .error (.unparsable path cause)

/-- The places where a settings file is looked for: the working directory, and the directory for the
settings of the user. -/
def candidates (userDir : Option OsString) : List OsString :=
  "fathom.toml" :: (userDir.map fun dir => Path.join dir "fathom/config.toml").toList

/-- Reads the first settings file there is; the defaults if there is none. -/
def discover (fs : Files) (userDir : Option OsString) : Except LoadError Settings :=
  match (candidates userDir).find? fs.isFile with
  | some path => load fs path
  | none => .ok {}

end Settings

end Ripple
