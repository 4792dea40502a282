import IsoScene.Proofs.FileSystem.Output
import IsoScene.Proofs.FrameSize
import IsoScene.Proofs.Raster.Cells
import Mathlib.Data.List.Forall2

/-! # Animations, whole or not at all

Frames make an animation if each of them has the size of the first one, and this size is not too
large (`isOk_ofFrames_iff`). It shows them pixel by pixel, as far as its format can (`Depicts`,
`Shows`). They may as well be checked one by one, each before it is handed to whatever writes it. If
that takes all frames of the size that it has been told, a later frame that is refused undoes what
has been written before, and the outcome is the same (`write_agrees`).

No file is touched until all frames have been taken (`whole_or_none`), and an animation that has
been saved stands where it should (`saveAnimation_spec`).
-/

namespace IsoScene

open Fetch (answer answer_bind_eq_ok)

namespace Animation

/-! ## Frames that are refused -/

/-- Some frame has a side that is too great for an animation, whose sides have 16 bits. -/
def HasOversized (frames : List Image) : Prop :=
  ∃ frame ∈ frames, 65535 < frame.width ∨ 65535 < frame.height

/-- Some frame differs in size from the first one. -/
def HasMixedSizes (frames : List Image) : Prop :=
  ∃ first ∈ frames.head?, ∃ frame ∈ frames,
    (frame.width, frame.height) ≠ (first.width, first.height)

section
variable {first : Image} {rest : List Image} {milliseconds : Nat}

/-- The first frame is checked like the others: it has its own size. -/
theorem checkFrame_self (first : Image) : checkFrame first first = checkSides first := by
  rw [checkFrame]
  cases checkSides first <;> simp

/-- All frames are accepted, also the first one. -/
theorem forM_checkFrame_eq_ok_iff :
    (first :: rest).forM (checkFrame first) = .ok () ↔
      ¬ (HasOversized (first :: rest) ∨ HasMixedSizes (first :: rest)) := by
  simp only [forM_eq_ok_iff, checkFrame_eq_ok_iff, HasOversized, HasMixedSizes, FitsIn,
    maxFrameSide, List.head?_cons, Option.mem_def, Option.some.injEq, exists_eq_left', not_or,
    not_exists, not_and, not_not, Nat.not_lt, forall_and]

theorem ofFrames_cons (first : Image) (rest : List Image) (milliseconds : Nat) :
    ofFrames (first :: rest) milliseconds =
      ((first :: rest).forM (checkFrame first)).map fun _ => some {
        width := first.width
        height := first.height
        delay := delayOf milliseconds
        frames := (first :: rest).map (Raster.map flattenColor) } := by
  rw [forM_cons, checkFrame_self, ofFrames]
  cases checkSides first with
  | error e => rfl
  | ok _ => cases rest.forM (checkFrame first) <;> rfl

end

/-- One picture shows another as far as an animation can. A pixel that is visible at all has its
colour and is opaque, and any other pixel is transparent. -/
structure Depicts (shown frame : Image) : Prop where
  width : shown.width = frame.width
  height : shown.height = frame.height
  visible : ∀ x y c, frame.get? x y = some c → c.alpha ≠ 0 →
    shown.get? x y = some ⟨c.red, c.green, c.blue, 255⟩
  hidden : ∀ x y c, frame.get? x y = some c → c.alpha = 0 → shown.get? x y = some ⟨0, 0, 0, 0⟩

theorem depicts_flattenColor (frame : Image) : Depicts (frame.map flattenColor) frame := by
  refine ⟨rfl, rfl, fun x y c cell visible => ?_, fun x y c cell hidden => ?_⟩
  · rw [Raster.get?_map, cell, Option.map_some, flattenColor_of_visible visible]
  · rw [Raster.get?_map, cell, Option.map_some, flattenColor_of_hidden hidden]

/-- The animation shows these frames in their order, each as far as its format can, and each for the
same time, which is at least the shortest and at most the longest one. -/
structure Shows (animation : Animation) (frames : List Image) (milliseconds : Nat) : Prop where
  size : ∀ frame ∈ frames, (frame.width, frame.height) = (animation.width, animation.height)
  frames : List.Forall₂ Depicts animation.frames frames
  delay : animation.delay = max 1 (min (milliseconds / 10) 65535)
  shortest : 1 ≤ animation.delay
  longest : animation.delay ≤ 65535

theorem shows_of_ofFrames {frames : List Image} {milliseconds : Nat} {animation : Animation}
    (made : ofFrames frames milliseconds = .ok (some animation)) :
    animation.Shows frames milliseconds := by
  cases frames with
  | nil => cases made
  | cons first rest =>
    rw [ofFrames_cons] at made
    obtain ⟨_, accepted, same⟩ := map_eq_ok_iff.mp made
    obtain rfl := Option.some.inj same
    have sized := fun frame member =>
      (checkFrame_eq_ok_iff.mp (forM_eq_ok_iff.mp accepted frame member)).2
    refine ⟨sized, ?_, rfl, Nat.le_max_left .., ?_⟩
    · exact List.forall₂_map_left_iff.mpr
        (List.forall₂_same.mpr fun frame _ => depicts_flattenColor frame)
    · exact Nat.max_le.mpr ⟨by decide, Nat.min_le_right ..⟩

theorem isOk_ofFrames_iff {frames : List Image} {milliseconds : Nat} :
    (∃ made, ofFrames frames milliseconds = .ok made) ↔
      ¬ (HasOversized frames ∨ HasMixedSizes frames) := by
  cases frames with
  | nil => simp [ofFrames, HasOversized, HasMixedSizes]
  | cons first rest =>
    rw [← forM_checkFrame_eq_ok_iff, ofFrames_cons]
    cases (first :: rest).forM (checkFrame first) <;> simp [Except.map]

theorem ofFrames_eq_none_iff {frames : List Image} {milliseconds : Nat} :
    ofFrames frames milliseconds = .ok none ↔ frames = [] := by
  cases frames with
  | nil => simp [ofFrames]
  | cons first rest =>
    rw [ofFrames_cons]
    cases (first :: rest).forM (checkFrame first) <;> simp [Except.map]

/-! ## Frames that are checked while they are written -/

/-- Where the frames of an animation go. It is told their size first, and then takes one after
another, each with its delay. All of this may fail. -/
structure Sink (σ : Type) where
  start : Nat → Nat → Except FileError σ
  add : σ → Nat → Image → Except FileError σ

namespace Sink

variable {σ : Type}

/-- Any size that an animation can have is accepted, and so are all frames of the size that has been
declared. -/
structure Accepts (sink : Sink σ) (declared : σ → Nat × Nat) : Prop where
  start : ∀ width height, FitsIn (width, height) 65535 →
    ∃ state, sink.start width height = .ok state ∧ declared state = (width, height)
  add : ∀ state delay frame, (frame.width, frame.height) = declared state →
    ∃ next, sink.add state delay frame = .ok next ∧ declared next = declared state

/-- Hands frames on, all with one delay. -/
def addAll (sink : Sink σ) (delay : Nat) (frames : List Image) (state : σ) : Except FileError σ :=
  frames.foldlM (fun state frame => sink.add state delay frame) state

/-- Hands a frame on if it is accepted. -/
def addChecked (sink : Sink σ) (first : Image) (delay : Nat) (state : σ) (frame : Image) :
    Except FileError σ := do
  checkFrame first frame
  sink.add state delay frame

/-- Writes frames as an animation. Each frame is checked when its turn comes. -/
def write (sink : Sink σ) (frames : List Image) (milliseconds : Nat) :
    Except FileError (Option σ) :=
  match frames with
  | [] => .ok none
  | first :: _ => do
    checkSides first
    let state ← sink.start first.width first.height
    let state ← frames.foldlM (sink.addChecked first (delayOf milliseconds)) state
    .ok (some state)

section
variable {sink : Sink σ} {declared : σ → Nat × Nat} {first : Image} {delay : Nat}

theorem addAll_ok (accepts : sink.Accepts declared) (delay : Nat) {frames : List Image} {state : σ}
    (sized : ∀ frame ∈ frames, (frame.width, frame.height) = declared state) :
    ∃ last, sink.addAll delay frames state = .ok last := by
  induction frames generalizing state with
  | nil => exact ⟨state, rfl⟩
  | cons frame frames ih =>
    obtain ⟨here, later⟩ := List.forall_mem_cons.mp sized
    obtain ⟨next, taken, same⟩ := accepts.add state delay frame here
    rw [← same] at later
    rw [addAll, List.foldlM_cons, taken, ok_bind]
    exact ih later

/-- The checks on the way are the checks beforehand. -/
theorem addChecked_all (accepts : sink.Accepts declared) {frames : List Image} {state : σ}
    (begun : declared state = (first.width, first.height)) :
    frames.foldlM (sink.addChecked first delay) state =
      frames.forM (checkFrame first) >>= fun _ => sink.addAll delay frames state := by
  induction frames generalizing state with
  | nil => rfl
  | cons frame frames ih =>
    rw [List.foldlM_cons, forM_cons, addChecked]
    cases checked : checkFrame first frame with
    | error e => rfl
    | ok _ =>
      have sized : (frame.width, frame.height) = declared state :=
        (checkFrame_eq_ok_iff.mp checked).2.trans begun.symm
      obtain ⟨next, taken, same⟩ := accepts.add state delay frame sized
      rw [ok_bind, ok_bind, taken, ok_bind, ih (same.trans begun), addAll, addAll,
        List.foldlM_cons, taken, ok_bind]

theorem write_cons (accepts : sink.Accepts declared) (first : Image) (rest : List Image)
    (milliseconds : Nat) :
    sink.write (first :: rest) milliseconds = (do
      (first :: rest).forM (checkFrame first)
      let begun ← sink.start first.width first.height
      let last ← sink.addAll (delayOf milliseconds) (first :: rest) begun
      return some last) := by
  rw [write]
  cases checked : checkSides first with
  | error e => rw [forM_cons, checkFrame_self, checked]; rfl
  | ok _ =>
    obtain ⟨begun, started, same⟩ := accepts.start _ _ (checkSides_eq_ok_iff.mp checked)
    rw [ok_bind, started, ok_bind, addChecked_all accepts same]
    cases (first :: rest).forM (checkFrame first) <;> rfl

theorem write_of_error (accepts : sink.Accepts declared) {frames : List Image} {milliseconds : Nat}
    {e : FileError} (refused : ofFrames frames milliseconds = .error e) :
    sink.write frames milliseconds = .error e := by
  cases frames with
  | nil => cases refused
  | cons first rest =>
    rw [ofFrames_cons] at refused
    rw [write_cons accepts]
    cases checked : (first :: rest).forM (checkFrame first) with
    | error _ =>
      rw [checked] at refused
      cases refused
      rfl
    | ok _ =>
      rw [checked] at refused
      cases refused

theorem write_of_ok (accepts : sink.Accepts declared) {frames : List Image} {milliseconds : Nat}
    {animation : Animation} (made : ofFrames frames milliseconds = .ok (some animation)) :
    ∃ begun last, sink.start animation.width animation.height = .ok begun ∧
      sink.addAll animation.delay frames begun = .ok last ∧
      sink.write frames milliseconds = .ok (some last) := by
  cases frames with
  | nil => cases made
  | cons first rest =>
    rw [ofFrames_cons] at made
    obtain ⟨_, checked, same⟩ := map_eq_ok_iff.mp made
    obtain rfl := Option.some.inj same
    have accepted := fun frame member =>
      checkFrame_eq_ok_iff.mp (forM_eq_ok_iff.mp checked frame member)
    obtain ⟨begun, started, size⟩ := accepts.start _ _ (accepted first List.mem_cons_self).1
    obtain ⟨last, taken⟩ := addAll_ok accepts (delayOf milliseconds)
      fun frame member => (accepted frame member).2.trans size.symm
    refine ⟨begun, last, started, taken, ?_⟩
    rw [write_cons accepts, checked, ok_bind, started, ok_bind, taken]
    rfl

/-- What becomes of frames that are written, by what they make as an animation: nothing if one is
refused, nothing if there are none, and else all of them, one after another. -/
structure Agrees (sink : Sink σ) (frames : List Image) (milliseconds : Nat) : Prop where
  refused : ∀ e,
    sink.write frames milliseconds = .error e ↔ ofFrames frames milliseconds = .error e
  none : ofFrames frames milliseconds = .ok none → sink.write frames milliseconds = .ok none
  all : ∀ animation, ofFrames frames milliseconds = .ok (some animation) →
    ∃ begun last, sink.start animation.width animation.height = .ok begun ∧
      sink.addAll animation.delay frames begun = .ok last ∧
      sink.write frames milliseconds = .ok (some last)

theorem write_of_none {frames : List Image} {milliseconds : Nat}
    (nothing : ofFrames frames milliseconds = .ok none) :
    sink.write frames milliseconds = .ok none := by
  rw [ofFrames_eq_none_iff.mp nothing]
  rfl

theorem write_agrees (accepts : sink.Accepts declared) (frames : List Image) (milliseconds : Nat) :
    sink.Agrees frames milliseconds := by
  refine ⟨fun e => ⟨fun failed => ?_, write_of_error accepts⟩, write_of_none,
    fun _ => write_of_ok accepts⟩
  cases made : ofFrames frames milliseconds with
  | error e' =>
    obtain rfl := Except.error.inj ((write_of_error accepts made).symm.trans failed)
    rfl
  | ok outcome =>
    cases outcome with
    | none => exact nomatch (write_of_none made).symm.trans failed
    | some animation =>
      obtain ⟨_, _, -, -, written⟩ := write_of_ok accepts made
      exact nomatch written.symm.trans failed

end

end Sink

/-! ## Files -/

section
variable {frames : List Image} {milliseconds : Nat}

open FileSystem (saveAnimation)

theorem saveAnimation_of_error {e : FileError} (refused : ofFrames frames milliseconds = .error e)
    (path : List Char) (fs : FileSystem) :
    answer (saveAnimation frames milliseconds path) fs = (.error (.file e), fs) := by
  rw [saveAnimation, refused]
  rfl

theorem saveAnimation_nil (milliseconds : Nat) (path : List Char) (fs : FileSystem) :
    answer (saveAnimation [] milliseconds path) fs = (.ok (), fs) := rfl

theorem saveAnimation_spec {fs after : FileSystem} {path : List Char} (tree : fs.IsTree)
    (nonempty : frames ≠ [])
    (saved : answer (saveAnimation frames milliseconds path) fs = (.ok (), after)) :
    ∃ name animation, Path.LeadsTo path name ∧
      FileSystem.KeepsBut [String.ofList name] fs after ∧ animation.Shows frames milliseconds ∧
      after.lookup path = some (.file (.animation animation)) := by
  unfold saveAnimation at saved
  split at saved
  · cases saved
  · next nothing => exact absurd (ofFrames_eq_none_iff.mp nothing) nonempty
  · next animation made =>
    obtain ⟨_, between, prepared, saved⟩ := answer_bind_eq_ok.mp saved
    have keeps := FileSystem.prepareParent_keeps tree prepared
    obtain ⟨name, leads, wrote, found⟩ :=
      FileSystem.write_spec (keeps.tree tree) (FileSystem.attempt_eq_ok saved)
    exact ⟨name, animation, leads, keeps.trans wrote, shows_of_ofFrames made, found⟩

end

/-- Frames are refused if one of them is too large or differs in size from the first one; without
frames there is nothing, and otherwise an animation shows all of them. Checking each frame when it is
written makes no difference to a writer that takes all frames of the declared size. If the frames are
refused or there are none, all files and directories stay as they are; and if an animation is saved,
it stands where it should. -/
theorem whole_or_none (frames : List Image) (milliseconds : Nat) :
    ((∃ e, ofFrames frames milliseconds = .error e) ↔
        HasOversized frames ∨ HasMixedSizes frames) ∧
      (ofFrames frames milliseconds = .ok none ↔ frames = []) ∧
      (frames ≠ [] → ¬ (HasOversized frames ∨ HasMixedSizes frames) →
        ∃ animation, ofFrames frames milliseconds = .ok (some animation) ∧
          animation.Shows frames milliseconds) ∧
      (∀ (σ : Type) (sink : Sink σ) (declared : σ → Nat × Nat), sink.Accepts declared →
        sink.Agrees frames milliseconds) ∧
      (∀ (fs : FileSystem) (path : List Char),
        (∃ e, ofFrames frames milliseconds = .error e) ∨ frames = [] →
          (answer (FileSystem.saveAnimation frames milliseconds path) fs).2 = fs) ∧
      ∀ (fs after : FileSystem) (path : List Char), fs.IsTree → frames ≠ [] →
        answer (FileSystem.saveAnimation frames milliseconds path) fs = (.ok (), after) →
          ∃ animation, animation.Shows frames milliseconds ∧
            after.lookup path = some (.file (.animation animation)) := by
  have made := @isOk_ofFrames_iff frames milliseconds
  refine ⟨?_, ofFrames_eq_none_iff, ?_, ?_, ?_, ?_⟩
  · rw [← not_iff_not, ← made, ← not_error_iff, not_exists]
  · intro nonempty fit
    obtain ⟨outcome, found⟩ := made.mpr fit
    cases outcome with
    | none => exact absurd (ofFrames_eq_none_iff.mp found) nonempty
    | some animation => exact ⟨animation, found, shows_of_ofFrames found⟩
  · exact fun σ sink declared accepts => Sink.write_agrees accepts frames milliseconds
  · rintro fs path (⟨e, refused⟩ | rfl)
    · rw [saveAnimation_of_error refused]
    · rw [saveAnimation_nil]
  · intro fs after path tree nonempty saved
    obtain ⟨name, animation, -, -, shows, stands⟩ := saveAnimation_spec tree nonempty saved
    exact ⟨animation, shows, stands⟩

/-- A writer that notes the size and the frames with their delays. The last frame of three is refused
after two have been noted; the file that is there stays, and no directory is made. -/
theorem whole_or_none_notes :
    let notes : Sink ((Nat × Nat) × List (Nat × Image)) :=
      { start := fun width height => .ok ((width, height), [])
        add := fun state delay frame => .ok (state.1, state.2 ++ [(delay, frame)]) }
    let red : Image := Raster.filled 2 1 ⟨255, 0, 0, 255⟩
    let blue : Image := Raster.filled 2 1 ⟨0, 0, 255, 255⟩
    let wide : Image := Raster.filled 3 1 ⟨255, 0, 0, 255⟩
    let fs : FileSystem := ⟨[(["a.gif"], .file (.bytes ByteArray.empty))], []⟩
    let save := fun frames path => answer (FileSystem.saveAnimation frames 600 path) fs
    notes.write [red, blue] 600 = .ok (some ((2, 1), [(60, red), (60, blue)])) ∧
      (∃ animation : Animation, animation.Shows [red, blue] 600 ∧
        (save [red, blue] "a.gif".toList).2.lookup "a.gif".toList =
          some (.file (.animation animation))) ∧
      (∃ e, notes.write [red, blue, wide] 600 = .error e) ∧
      (save [red, blue, wide] "a.gif".toList).2 = fs ∧
      (save [red, blue, wide] "new/a.gif".toList).2 = fs ∧ (save [] "new/a.gif".toList).2 = fs := by
  intro notes red blue wide fs save
  have accepts : notes.Accepts Prod.fst :=
    ⟨fun _ _ _ => ⟨_, rfl, rfl⟩, fun _ _ _ _ => ⟨_, rfl, rfl⟩⟩
  have mixed : HasMixedSizes [red, blue, wide] :=
    ⟨red, rfl, wide, by simp, by decide⟩
  have tree : fs.IsTree := FileSystem.isTree_of_nodes (by decide +kernel)
  have fit : ¬ (HasOversized [red, blue] ∨ HasMixedSizes [red, blue]) := by
    simp [HasOversized, HasMixedSizes, red, blue]
  obtain ⟨-, -, shown, written, -, stands⟩ := whole_or_none [red, blue] 600
  obtain ⟨refused, -, -, refusedOnTheWay, untouched, -⟩ := whole_or_none [red, blue, wide] 600
  obtain ⟨e, failed⟩ := refused.mpr (.inr mixed)
  refine ⟨?_, ?_, ⟨e, ((refusedOnTheWay _ notes _ accepts).refused e).mpr failed⟩,
    untouched fs _ (.inl ⟨e, failed⟩), untouched fs _ (.inl ⟨e, failed⟩), ?_⟩
  · obtain ⟨animation, made, shows⟩ := shown (by simp) fit
    obtain ⟨_, _, started, taken, wrote⟩ := (written _ notes _ accepts).all animation made
    obtain rfl := Except.ok.inj started
    obtain rfl := Except.ok.inj taken
    have size := shows.size red (by simp)
    have delay : animation.delay = 60 := shows.delay
    rw [wrote, ← size, delay]
    rfl
  · exact stands fs _ _ tree (by simp) (Prod.ext (by decide +kernel) rfl)
  · exact (whole_or_none [] 600).2.2.2.2.1 fs _ (.inr rfl)

end Animation

end IsoScene
