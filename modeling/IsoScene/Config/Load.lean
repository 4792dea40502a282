import IsoScene.Config.Basic
import IsoScene.FileSystem.Basic
import IsoScene.Toml.Reader

/-! # Finding and loading a configuration

A configuration is the file `tilescape.toml` in the working directory or in the nearest directory
above it that has one, unless a path is given. Without any file every field has its default.
-/

namespace IsoScene

inductive ConfigError where
  | unreadable
  | malformed
  | invalid (problems : List ConfigProblem)
deriving DecidableEq, Repr

def ConfigError.message : ConfigError → String
  | .unreadable => "Failed to read config"
  | .malformed => "Failed to parse tilescape.toml"
  | .invalid problems =>
    "Config validation failed:\n" ++
      String.intercalate "\n" (problems.map fun problem => "  - " ++ problem.text)

namespace Config

def fileName : String := "tilescape.toml"

/-- The places where a configuration file may be, from one directory upwards, nearest first. -/
def candidates (start : List Char) : List (List Char) :=
  (start :: Path.ancestors start).map fun directory => Path.join directory fileName.toList

/-- The configuration file in the nearest directory, from one directory upwards. -/
def findFrom (fs : FileSystem) (start : List Char) : Option (List Char) :=
  (candidates start).find? fs.exists?

def find (fs : FileSystem) : Option (List Char) := findFrom fs fs.workingPath

def ofText? (baseDirectory text : List Char) : Option Config :=
  (Toml.read text).bind (ofDatum? true baseDirectory)

def loadFile (fs : FileSystem) (path : List Char) : Except ConfigError Config :=
  match fs.readText path with
  | none => .error .unreadable
  | some text =>
    match ofText? ((Path.parent? path).getD []) text with
    | none => .error .malformed
    | some config =>
      if config.problems.isEmpty then .ok config else .error (.invalid config.problems)

/-- Loads the file at a path if one is given, else the nearest file, else the defaults. -/
def load (fs : FileSystem) (path : Option (List Char)) : Except ConfigError Config :=
  match path.or (find fs) with
  | some path => loadFile fs path
  | none => .ok (standard fs.workingPath)

end Config

end IsoScene
