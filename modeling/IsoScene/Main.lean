import IsoScene.CommandLine.Run

/-! # The program `tscape`

The program looks at the files that a run may need, lets `CommandLine.run` decide what happens, and
brings what has changed to the disk. Nothing is decided here.

* `Disk.observe`, `observeTree` — add what stands on the disk to a file system.
* `Disk.observeFor` — everything that an invocation may look at.
* `Disk.bring` — a change, made on the disk.
-/

namespace IsoScene.Disk

/-- What is at a place. A file that cannot be read holds neither text nor a picture. -/
def node? (place : Place) : IO (Option FileNode) := do
  let path := (← IO.currentDir) / String.ofList (FileSystem.pathOf place)
  if ← path.isDir then return some .directory
  if ← path.pathExists then
    try return some (.file (.bytes (← IO.FS.readBinFile path)))
    catch _ => return some (.file (.bytes ⟨#[0xFF]⟩))
  return none

/-- Adds what is at the end of a path, if that is not known yet. -/
def observeEnd (fs : FileSystem) (path : List Char) : IO FileSystem := do
  match fs.locate? path with
  | none => return fs
  | some place =>
    if (fs.node? place).isSome then return fs
    match ← node? place with
    | none => return fs
    | some node => return fs.put place node

/-- Adds what is at the end of a path and at every directory on the way. -/
def observe (fs : FileSystem) (path : List Char) : IO FileSystem :=
  (path :: Path.ancestors path).reverse.foldlM observeEnd fs

/-- Adds a directory with what is in it, down to some depth. -/
def observeTree : Nat → FileSystem → List Char → IO FileSystem
  | 0, fs, path => observe fs path
  | depth + 1, fs, path => do
    let fs ← observe fs path
    let directory := (← IO.currentDir) / String.ofList path
    if ← directory.isDir then
      (← directory.readDir).foldlM
        (fun fs entry => observeTree depth fs (Path.join path entry.fileName.toList)) fs
    else return fs

def here : IO FileSystem := do
  let path := (toString (← IO.currentDir)).toList
  let root : FileSystem := ⟨[], []⟩
  let fs ← observe root path
  return { fs with workingDirectory := (fs.locate? path).getD [] }

/-- Adds the assets of an engine. Letters are in directories of their own, one for each letter. -/
def observeAssets (fs : FileSystem) (paths : AssetPaths) : IO FileSystem := do
  let fs ← [paths.catalog, paths.palette, paths.plate].foldlM observe fs
  observeTree 2 fs paths.letters

/-- Adds everything that an invocation may look at. -/
def observeFor (fs : FileSystem) (stdin : Option (List Char))
    (invocation : CommandLine.Invocation) : IO FileSystem := do
  let input := invocation.task.input
  let fs ← (input :: invocation.task.targets).foldlM observe fs
  let fs ← (invocation.config.elim (Config.candidates fs.workingPath) ([·])).foldlM observe fs
  let .ok config := Config.load fs invocation.config | return fs
  let fs ← observeAssets fs config.assetPaths
  let .ok (engine, text) := CommandLine.prepare fs stdin invocation.config input | return fs
  let .ok (scene, _) := engine.parse text | return fs
  (engine.spriteFiles scene).foldlM observe fs

def bring (place : Place) (node : FileNode) : IO Unit := do
  let path := (← IO.currentDir) / String.ofList (FileSystem.pathOf place)
  match node with
  | .directory => IO.FS.createDirAll path
  | .file content => IO.FS.writeBinFile path content.toBytes

/-- The text on standard input, if it is text. -/
def readStandardInput : IO (Option (List Char)) := do
  let bytes ← (← IO.getStdin).readBinToEnd
  return (String.fromUTF8? bytes).map String.toList

/-- Runs the program and returns its exit code. -/
def execute (arguments : List String) : IO UInt32 := do
  let mut before ← here
  let mut stdin := none
  if let .ok invocation := CommandLine.read arguments then
    if invocation.task.input = ['-'] then stdin ← readStandardInput
    before ← observeFor before stdin invocation
  let (outcome, after) := CommandLine.run arguments stdin before
  for (place, node) in after.changesSince before do
    bring place node
  IO.print outcome.output
  if let some message := outcome.error then IO.eprintln message
  return outcome.exitCode.toUInt32

end IsoScene.Disk

def main (arguments : List String) : IO UInt32 := IsoScene.Disk.execute arguments
