import IsoScene.CommandLine.Arguments
import IsoScene.Engine
import IsoScene.FileSystem.Output
import IsoScene.Json.Printer
import IsoScene.Scene.Listing

/-! # Running the program

A run goes through its stages in a fixed order: the configuration, the catalog, the scene text, and
then parsing, rendering and writing as far as the task needs them. The first stage that fails
decides the outcome.

* `Failure` — the stage that failed, and why.
* `Outcome` — how a run ends, with its exit code and what it prints.
* `run` — a run over given arguments, standard input and files.
-/

namespace IsoScene.CommandLine

inductive Failure where
  | config (error : ConfigError)
  | catalog (error : CatalogError)
  | input (path : List Char)
  | scene (error : RenderError)
deriving DecidableEq, Repr

namespace Failure

def message : Failure → String
  | config error => error.message
  | catalog error => error.message
  | input path => "Cannot read '" ++ String.ofList path ++ "'"
  | scene error => error.message

/-- Two if the run could not begin as asked, one if it failed later. -/
def exitCode : Failure → Nat
  | config _ => 2
  | input _ => 2
  | catalog _ => 1
  | scene _ => 1

end Failure

inductive Outcome where
  | stopped (stop : Stop)
  | failed (failure : Failure)
  | saved (output : List Char)
  | listed (scene : Scene)

def versionText : String := "tscape 0.1.0\n"

def helpText : String :=
  "tilescape - Render isometric tile scenes to animated GIFs\n\n" ++
  "Usage: tscape [OPTIONS] <COMMAND>\n\n" ++
  "Commands:\n" ++
  "  render <INPUT> --output <OUTPUT> [--frames-dir <FRAMES_DIR>]\n" ++
  "          Render a scene to an animated GIF\n" ++
  "  parse <INPUT>\n" ++
  "          Parse a scene and print it as JSON\n" ++
  "  help    Print this message\n\n" ++
  "Options:\n" ++
  "  -v, --verbose          Enable verbose logging\n" ++
  "      --config <CONFIG>  Path to tilescape.toml\n" ++
  "  -h, --help             Print help\n" ++
  "  -V, --version          Print version\n"

namespace Outcome

def exitCode : Outcome → Nat
  | stopped .usage => 2
  | stopped _ => 0
  | failed failure => failure.exitCode
  | saved _ => 0
  | listed _ => 0

def output : Outcome → String
  | stopped .help => helpText
  | stopped .version => versionText
  | stopped .usage => ""
  | failed _ => ""
  | saved path => "Saved: " ++ String.ofList path ++ "\n"
  | listed scene => Json.pretty scene.datum ++ "\n"

def error : Outcome → Option String
  | stopped .usage => some "error: unexpected arguments, see --help"
  | failed failure => some ("Error: " ++ failure.message)
  | _ => none

end Outcome

/-- The text of a scene, from a file or, for a single dash, from standard input. -/
def readScene (fs : FileSystem) (stdin : Option (List Char)) (input : List Char) :
    Except Failure (List Char) :=
  match if input = ['-'] then stdin else fs.readText input with
  | some text => .ok text
  | none => .error (.input input)

/-- The stages before parsing: configuration, catalog, scene text. -/
def prepare (fs : FileSystem) (stdin : Option (List Char)) (config : Option (List Char))
    (input : List Char) : Except Failure (Engine × List Char) := do
  let config ← (Config.load fs config).mapError .config
  let engine ← (Engine.load fs config).mapError .catalog
  let text ← readScene fs stdin input
  .ok (engine, text)

/-- The name of an output file without its suffix, from which the names of frames are made. -/
def frameStem (output : List Char) : List Char := (Path.stem? output).getD "frame".toList

def Task.targets : Task → List (List Char)
  | render _ output framesDirectory =>
    output :: framesDirectory.toList.flatMap fun directory =>
      wobbles.map (FileSystem.framePath directory (frameStem output))
  | parse _ => []

/-- Writes the frames if a directory is given for them, and then the animation. -/
def save (frames : List Image) (milliseconds : Nat) (output : List Char)
    (framesDirectory : Option (List Char)) : FileChange Unit := do
  match framesDirectory with
  | none => pure ()
  | some directory =>
    let _ ← FileSystem.saveFrames frames directory (frameStem output)
  FileSystem.saveAnimation frames milliseconds output

def runRender (engine : Engine) (fs : FileSystem) (text output : List Char)
    (framesDirectory : Option (List Char)) : Outcome × FileSystem :=
  match ((engine.render fs text).answer SpriteCache.empty).1 with
  | .error e => (.failed (.scene e), fs)
  | .ok frames =>
    match (save frames engine.config.render.frameDelay output framesDirectory).run.run fs with
    | (.error e, fs) => (.failed (.scene e), fs)
    | (.ok (), fs) => (.saved output, fs)

def runParse (engine : Engine) (text : List Char) : Outcome :=
  match engine.parse text with
  | .error e => .failed (.scene (.user e))
  | .ok (scene, _) => .listed scene

def invoke (fs : FileSystem) (stdin : Option (List Char)) (invocation : Invocation) :
    Outcome × FileSystem :=
  match invocation.task with
  | .render input output framesDirectory =>
    match prepare fs stdin invocation.config input with
    | .error failure => (.failed failure, fs)
    | .ok (engine, text) => runRender engine fs text output framesDirectory
  | .parse input =>
    match prepare fs stdin invocation.config input with
    | .error failure => (.failed failure, fs)
    | .ok (engine, text) => (runParse engine text, fs)

def run (arguments : List String) (stdin : Option (List Char)) (fs : FileSystem) :
    Outcome × FileSystem :=
  match read arguments with
  | .error stop => (.stopped stop, fs)
  | .ok invocation => invoke fs stdin invocation

end IsoScene.CommandLine
