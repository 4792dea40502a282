import IsoScene.FileSystem.Basic

/-! # Writing frames and animations

Directories above a file are created as far as they are missing. What has been written before a
failure stays.

* `FileSystem.saveFrames` — numbered pictures in a directory.
* `FileSystem.saveAnimation` — one animation.
-/

namespace IsoScene

/-- A change of the files that may fail on the way. -/
abbrev FileChange (α : Type) := ExceptT RenderError (StateM FileSystem) α

namespace FileSystem

/-- A change that the file system makes or refuses. -/
def attempt (error : RenderError) (change : FileSystem → Option FileSystem) : FileChange Unit := do
  match change (← get) with
  | some fs => set fs
  | none => throw error

/-- Creates the directory that holds a path, if it is not there. -/
def prepareParent (path : List Char) : FileChange Unit := do
  match Path.parent? path with
  | none => pure ()
  | some parent =>
    if !parent.isEmpty && !(← get).exists? parent then
      attempt (.file .refused) (·.createDirectories parent)

/-- Writes a picture. A picture without cells cannot be written; its file is left empty. -/
def saveImage (image : Image) (path : List Char) : FileChange Unit := do
  prepareParent path
  if image.width = 0 ∨ image.height = 0 then
    attempt .undecodable (·.write path (.bytes ByteArray.empty))
    throw .undecodable
  else attempt .undecodable (·.write path (.picture image))

/-- The path of the frame with a number, counted from zero; in its name the count begins at
one. -/
def framePath (directory stem : List Char) (index : Nat) : List Char :=
  Path.join directory (stem ++ '_' :: (toString (index + 1)).toList ++ ".png".toList)

/-- Writes every frame as a picture, and returns the paths. -/
def saveFrames (frames : List Image) (directory stem : List Char) : FileChange (List (List Char)) :=
  frames.zipIdx.mapM fun (frame, index) => do
    let path := framePath directory stem index
    saveImage frame path
    pure path

/-- Writes an animation of frames. Nothing is written without frames, nor before it is clear that
the frames make an animation. -/
def saveAnimation (frames : List Image) (milliseconds : Nat) (path : List Char) :
    FileChange Unit := do
  match Animation.ofFrames frames milliseconds with
  | .error e => throw (.file e)
  | .ok none => pure ()
  | .ok (some animation) =>
    prepareParent path
    attempt (.file .refused) (·.write path (.animation animation))

end FileSystem

end IsoScene
