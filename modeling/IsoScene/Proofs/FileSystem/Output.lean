import IsoScene.Proofs.Failure
import IsoScene.Proofs.Fetch
import IsoScene.Proofs.FileSystem.Tree
import Mathlib.Data.List.Sigma

/-! # What has been written

If a picture has been saved, it stands where it should, and nothing else has changed but the
directories that were missing (`saveImage_spec`). Frames that are saved one after another have
different names, so all of them are there in the end (`saveFrames_spec`).

A text is read exactly if its bytes are in the file (`readText_eq_some_iff`), and a picture that has
been saved as a frame is read again as it is (`readImage_framePath`).
-/

namespace IsoScene

open Fetch (answer answer_bind_eq_ok)

namespace FileSystem

variable {fs after : FileSystem}

theorem attempt_eq_ok {error : RenderError} {change : FileSystem → Option FileSystem}
    (made : answer (attempt error change) fs = (.ok (), after)) : change fs = some after := by
  obtain ⟨found, between, got, made⟩ := answer_bind_eq_ok.mp made
  cases got
  split at made
  · next changed =>
    cases made
    exact changed
  · cases made

theorem prepareParent_keeps {path : List Char} (tree : fs.IsTree)
    (made : answer (prepareParent path) fs = (.ok (), after)) : KeepsBut [] fs after := by
  unfold prepareParent at made
  split at made
  · cases made
    exact .refl fs
  · obtain ⟨found, between, got, made⟩ := answer_bind_eq_ok.mp made
    cases got
    split at made
    · exact createDirectories_keeps tree (attempt_eq_ok made)
    · cases made
      exact .refl fs

theorem saveImage_spec {image : Image} {path : List Char} (tree : fs.IsTree)
    (saved : answer (saveImage image path) fs = (.ok (), after)) :
    ∃ name, Path.LeadsTo path name ∧ KeepsBut [String.ofList name] fs after ∧
      after.lookup path = some (.file (.picture image)) := by
  obtain ⟨_, between, prepared, saved⟩ := answer_bind_eq_ok.mp saved
  have keeps := prepareParent_keeps tree prepared
  split at saved
  · obtain ⟨_, _, -, ⟨⟩⟩ := answer_bind_eq_ok.mp saved
  · obtain ⟨name, leads, wrote, found⟩ := write_spec (keeps.tree tree) (attempt_eq_ok saved)
    exact ⟨name, leads, keeps.trans wrote, found⟩

/-! ## Frames -/

/-- Saves one frame with its number. -/
def saveFrame (directory stem : List Char) (frame : Image × Nat) : FileChange (List Char) := do
  saveImage frame.1 (framePath directory stem frame.2)
  pure (framePath directory stem frame.2)

theorem saveFrames_eq (frames : List Image) (directory stem : List Char) :
    saveFrames frames directory stem = frames.zipIdx.mapM (saveFrame directory stem) := rfl

/-- The file name of a frame's path. -/
theorem fileName?_framePath (directory : List Char) {stem : List Char} (no_slash : '/' ∉ stem)
    (index : Nat) :
    Path.fileName? (framePath directory stem index) = some (frameName stem index) :=
  Path.fileName?_eq ⟨isName_frameName no_slash index, framePath_endsIn directory stem index⟩

/-- A frame is saved under its name, and the frames saved later have other names. -/
theorem saveAll_spec {directory stem : List Char} (no_slash : '/' ∉ stem)
    {frames : List (Image × Nat)} {paths : List (List Char)} (tree : fs.IsTree)
    (distinct : (frames.map fun frame => frameName stem frame.2).Nodup)
    (saved : answer (frames.mapM (saveFrame directory stem)) fs = (.ok paths, after)) :
    KeepsBut (frames.map fun frame => String.ofList (frameName stem frame.2)) fs after ∧
      ∀ frame ∈ frames,
        after.lookup (framePath directory stem frame.2) = some (.file (.picture frame.1)) := by
  induction frames generalizing fs paths with
  | nil =>
    cases saved
    exact ⟨.refl _, by simp⟩
  | cons frame frames ih =>
    rw [List.mapM_cons] at saved
    obtain ⟨_, between, first, saved⟩ := answer_bind_eq_ok.mp saved
    obtain ⟨later, left, rest, ⟨⟩⟩ := answer_bind_eq_ok.mp saved
    obtain ⟨_, wrote, first, ⟨⟩⟩ := answer_bind_eq_ok.mp first
    obtain ⟨different, distinct⟩ := List.nodup_cons.mp distinct
    obtain ⟨name, leads, keeps, found⟩ := saveImage_spec tree first
    obtain rfl : frameName stem frame.2 = name := Option.some.inj <|
      (fileName?_framePath directory no_slash frame.2).symm.trans (Path.fileName?_eq leads)
    obtain ⟨keepsLater, foundLater⟩ := ih (keeps.tree tree) distinct rest
    refine ⟨keeps.trans keepsLater, List.forall_mem_cons.mpr ⟨?_, foundLater⟩⟩
    -- The first frame would be lost only to a later one of the same name.
    refine keepsLater.lookup_eq (keeps.tree tree) found fun name named member => ?_
    rw [fileName?_framePath directory no_slash, Option.some.injEq] at named
    obtain ⟨other, inFrames, same⟩ := List.mem_map.mp member
    refine different (List.mem_map.mpr ⟨other, inFrames, ?_⟩)
    exact (String.ofList_injective same).trans named.symm

theorem nodup_frameNames (frames : List Image) (stem : List Char) :
    (frames.zipIdx.map fun frame => frameName stem frame.2).Nodup := by
  have names := (List.nodup_zipIdx_map_snd frames).map (frameName_injective stem)
  rwa [List.map_map] at names

/-- Frames that are saved one after another are all there in the end. -/
theorem saveFrames_spec {frames : List Image} {directory stem : List Char}
    {paths : List (List Char)} (no_slash : '/' ∉ stem) (tree : fs.IsTree)
    (saved : answer (saveFrames frames directory stem) fs = (.ok paths, after)) :
    KeepsBut (frames.zipIdx.map fun frame => String.ofList (frameName stem frame.2)) fs after ∧
      ∀ frame ∈ frames.zipIdx,
        after.lookup (framePath directory stem frame.2) = some (.file (.picture frame.1)) := by
  rw [saveFrames_eq] at saved
  exact saveAll_spec no_slash tree (nodup_frameNames frames stem) saved

/-! ## What is read -/

theorem fromUTF8?_eq_some_iff {content : ByteArray} {s : String} :
    String.fromUTF8? content = some s ↔ s.toUTF8 = content := by
  unfold String.fromUTF8?
  constructor
  · intro read
    split at read
    · cases read
      rfl
    · cases read
  · rintro rfl
    exact dif_pos s.isValidUTF8

/-- A file is read as a text if it holds the bytes of the text. -/
theorem readText_eq_some_iff {path text : List Char} :
    fs.readText path = some text ↔
      fs.lookup path = some (.file (.bytes (String.ofList text).toUTF8)) := by
  unfold readText
  split
  · next content found =>
    rw [found, Option.map_eq_some_iff]
    simp only [fromUTF8?_eq_some_iff, Option.some.injEq, FileNode.file.injEq,
      FileContent.bytes.injEq]
    constructor
    · rintro ⟨s, rfl, rfl⟩
      rw [String.ofList_toList]
    · intro same
      exact ⟨String.ofList text, same.symm, String.toList_ofList⟩
  · next other =>
    simp only [reduceCtorEq, false_iff]
    exact other _

/-- A picture that has been saved as a frame is read again as it is. -/
theorem readImage_framePath {directory stem : List Char} (no_slash : '/' ∉ stem) {index : Nat}
    {frame : Image}
    (found : fs.lookup (framePath directory stem index) = some (.file (.picture frame))) :
    fs.readImage (framePath directory stem index) = .ok frame := by
  have suffix : Path.suffix? (framePath directory stem index) = some "png".toList := by
    rw [Path.suffix?, fileName?_framePath directory no_slash, Option.bind_some,
      cutName_frameName]
  have format : PictureFormat.ofSuffix? "png".toList = some .png := by decide +kernel
  rw [readImage, suffix, found, Option.bind_some, format]
  rfl

end FileSystem

end IsoScene
