import IsoScene.FileSystem.Content
import IsoScene.FileSystem.Path

/-! # Files and directories

A file system is a finite tree of directories and files. Some paths lead nowhere: a directory on
the way is missing, or a name or the whole path is too long. There are no links: every file and
directory is reached by one sequence of names. There are no permissions either.

* `FileSystem.locate?` — the place that a path leads to.
* `isFile`, `isDirectory`, `exists?` — what stands there.
* `readText`, `readImage` — the content of a file.
* `write`, `createDirectories`, `remove` — changes, each possibly refused.
* `changesSince` — what changes have added to an earlier file system.
-/

namespace IsoScene

inductive FileNode where
  | directory
  | file (content : FileContent)
deriving DecidableEq

/-- A place in the tree: names from the root down. -/
abbrev Place := List String

/-- The nodes below the root, and the directory in which relative paths begin. -/
structure FileSystem where
  nodes : List (Place × FileNode)
  workingDirectory : Place

namespace FileSystem

def node? (fs : FileSystem) (place : Place) : Option FileNode :=
  if place.isEmpty then some .directory else fs.nodes.lookup place

def isDirectoryAt (fs : FileSystem) (place : Place) : Bool :=
  match fs.node? place with
  | some .directory => true
  | _ => false

def pathOf (place : Place) : List Char := '/' :: Text.joinWith '/' (place.map String.toList)

def workingPath (fs : FileSystem) : List Char := pathOf fs.workingDirectory

/-! ## Following paths -/

def maxNameBytes : Nat := 255
def maxPathBytes : Nat := 4095

/-- A path that can lead somewhere: neither empty nor too long, and without the character that ends
paths. -/
def isUsable (path : List Char) : Bool :=
  !path.isEmpty && !path.contains '\x00' && (String.ofList path).utf8ByteSize ≤ maxPathBytes

/-- One step along a path. Every step starts in a directory, also one that stays there. -/
def step (fs : FileSystem) (place : Place) (piece : List Char) : Option Place :=
  let name := String.ofList piece
  if !fs.isDirectoryAt place || maxNameBytes < name.utf8ByteSize then none
  else if piece = [] ∨ piece = ['.'] then some place
  else if piece = ['.', '.'] then some place.dropLast
  else some (place ++ [name])

/-- The place that a path leads to, whether or not something stands there. All the directories on
the way have to exist. -/
def locate? (fs : FileSystem) (path : List Char) : Option Place :=
  if !isUsable path then none
  else
    (Text.pieces '/' path).foldlM fs.step
      (if Path.isAbsolute path then [] else fs.workingDirectory)

def lookup (fs : FileSystem) (path : List Char) : Option FileNode :=
  (fs.locate? path).bind fs.node?

def exists? (fs : FileSystem) (path : List Char) : Bool := (fs.lookup path).isSome

def isDirectory (fs : FileSystem) (path : List Char) : Bool :=
  match fs.lookup path with
  | some .directory => true
  | _ => false

def isFile (fs : FileSystem) (path : List Char) : Bool :=
  match fs.lookup path with
  | some (.file _) => true
  | _ => false

/-! ## Reading -/

def readText (fs : FileSystem) (path : List Char) : Option (List Char) :=
  match fs.lookup path with
  | some (.file (.bytes content)) => (String.fromUTF8? content).map String.toList
  | _ => none

/-- The picture in a file. Its format follows from the suffix of the path. -/
def readImage (fs : FileSystem) (path : List Char) : Except RenderError Image :=
  match (Path.suffix? path).bind PictureFormat.ofSuffix?, fs.lookup path with
  | some format, some (.file content) =>
    match content.picture? format with
    | some image => .ok image
    | none => .error .undecodable
  | _, _ => .error .undecodable

def names (fs : FileSystem) (path : List Char) : List String :=
  match fs.locate? path with
  | none => []
  | some place =>
    fs.nodes.filterMap fun (other, _) =>
      if other.dropLast = place then other.getLast? else none

/-! ## Changing -/

def put (fs : FileSystem) (place : Place) (node : FileNode) : FileSystem :=
  { fs with nodes := (fs.nodes.filter (·.1 ≠ place)) ++ [(place, node)] }

/-- Writes a file. A directory is not overwritten. -/
def write (fs : FileSystem) (path : List Char) (content : FileContent) : Option FileSystem := do
  let place ← fs.locate? path
  if fs.isDirectoryAt place then none else some (fs.put place (.file content))

/-- A path without the slashes at its end. -/
def dropSlashes (path : List Char) : List Char :=
  let kept := (path.reverse.dropWhile (· = '/')).reverse
  if kept.isEmpty then path.take 1 else kept

def createDirectory (fs : FileSystem) (path : List Char) : Option FileSystem := do
  let place ← fs.locate? (dropSlashes path)
  match fs.node? place with
  | none => some (fs.put place .directory)
  | some .directory => some fs
  | some (.file _) => none

/-- Creates a directory and the directories above it, as far as they are not there. -/
def createDirectories (fs : FileSystem) (path : List Char) : Option FileSystem :=
  ((path :: Path.ancestors path).reverse.filter fun ancestor => !ancestor.isEmpty).foldlM
    createDirectory fs

def remove (fs : FileSystem) (path : List Char) : FileSystem :=
  match fs.locate? path with
  | none => fs
  | some place => { fs with nodes := fs.nodes.filter fun (other, _) => !place.isPrefixOf other }

/-- The nodes that were not there earlier, or not so, in the order in which they were made. -/
def changesSince (fs earlier : FileSystem) : List (Place × FileNode) :=
  fs.nodes.filter fun entry => !earlier.nodes.contains entry

end FileSystem

end IsoScene
