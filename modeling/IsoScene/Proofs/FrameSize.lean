import IsoScene.Engine
import IsoScene.Proofs.Fetch
import IsoScene.Proofs.Scene.Composition

/-! # The size of frames

The size of the frames is known before anything is drawn: it is that of the canvas, enlarged
(`Scene.enlargedCanvas`). It is compared with a limit first, so that a scene which is too large
fails at once (`frameSize_eq`, `render_of_not_fits`), and a scene which is drawn has frames of
exactly this size, which an animation takes (`frames_fit`).
-/

namespace IsoScene

variable {σ : Type}

/-- Neither side exceeds the limit. -/
def FitsIn (size : Nat × Nat) (limit : Nat) : Prop := size.1 ≤ limit ∧ size.2 ≤ limit

instance (size : Nat × Nat) (limit : Nat) : Decidable (FitsIn size limit) :=
  inferInstanceAs (Decidable (_ ∧ _))

/-- The frames of a scene have this size. -/
def AreFrames (size : Nat × Nat) (frames : List Image) : Prop :=
  frames.length = 3 ∧ ∀ frame ∈ frames, (frame.width, frame.height) = size

/-! ## Limits -/

theorem Binary64.one_le_side (x : Binary64) : 1 ≤ x.side := by
  unfold side
  split
  · exact Nat.le_refl 1
  · split
    · exact Nat.le_refl 1
    · decide
  · exact Nat.le_max_left 1 _

theorem scaledSide_eq_some_iff {scale limit side scaled : Nat} :
    scaledSide scale limit side = some scaled ↔
      scaled = side * max scale 1 ∧ scaled ≤ Text.maxNat32 ∧ scaled ≤ limit := by
  unfold scaledSide
  by_cases fits : side * max scale 1 ≤ Text.maxNat32 ∧ side * max scale 1 ≤ limit
  · simp only [fits, and_self, if_true, Option.some.injEq]
    constructor
    · rintro rfl
      exact ⟨rfl, fits⟩
    · exact fun same => same.1.symm
  · simp only [fits, if_false, reduceCtorEq, false_iff]
    rintro ⟨rfl, small⟩
    exact fits small

namespace Scene

/-- The canvas of a scene, with every pixel enlarged. -/
def enlargedCanvas (scene : Scene) (scale : Nat) : Nat × Nat :=
  (scene.bounds.canvasSize.1 * max scale 1, scene.bounds.canvasSize.2 * max scale 1)

theorem enlargedCanvas_pos (scene : Scene) (scale : Nat) :
    0 < (scene.enlargedCanvas scale).1 ∧ 0 < (scene.enlargedCanvas scale).2 := by
  have enlarged : 0 < max scale 1 := by omega
  exact ⟨Nat.mul_pos (Binary64.one_le_side _) enlarged,
    Nat.mul_pos (Binary64.one_le_side _) enlarged⟩

theorem frameSize_of_fits {scene : Scene} {scale limit : Nat} (bound : limit ≤ Text.maxNat32)
    (fits : FitsIn (scene.enlargedCanvas scale) limit) :
    scene.frameSize scale limit = .ok (scene.enlargedCanvas scale) := by
  have width := scaledSide_eq_some_iff.mpr ⟨rfl, fits.1.trans bound, fits.1⟩
  have height := scaledSide_eq_some_iff.mpr ⟨rfl, fits.2.trans bound, fits.2⟩
  rw [frameSize]
  dsimp only
  rw [width, height]
  rfl

theorem fits_of_frameSize {scene : Scene} {scale limit : Nat} {size : Nat × Nat}
    (accepted : scene.frameSize scale limit = .ok size) :
    size = scene.enlargedCanvas scale ∧ FitsIn size limit := by
  unfold frameSize at accepted
  dsimp only at accepted
  split at accepted
  · next w h width height =>
    obtain rfl : (w, h) = size := Except.ok.inj accepted
    obtain ⟨rfl, -, smallWidth⟩ := scaledSide_eq_some_iff.mp width
    obtain ⟨rfl, -, smallHeight⟩ := scaledSide_eq_some_iff.mp height
    exact ⟨rfl, smallWidth, smallHeight⟩
  · simp at accepted

theorem error_of_frameSize {scene : Scene} {scale limit : Nat} {e : UserError}
    (refused : scene.frameSize scale limit = .error e) : e = .range (.sceneTooLarge limit) := by
  unfold frameSize at refused
  dsimp only at refused
  split at refused
  · simp at refused
  · exact (Except.error.inj refused).symm

theorem frameSize_of_not_fits {scene : Scene} {scale limit : Nat}
    (tooLarge : ¬ FitsIn (scene.enlargedCanvas scale) limit) :
    scene.frameSize scale limit = .error (.range (.sceneTooLarge limit)) := by
  cases answered : scene.frameSize scale limit with
  | ok size =>
    obtain ⟨rfl, fits⟩ := fits_of_frameSize answered
    exact absurd fits tooLarge
  | error e => rw [error_of_frameSize answered]

theorem frameSize_eq {scene : Scene} {scale limit : Nat} (bound : limit ≤ Text.maxNat32) :
    scene.frameSize scale limit =
      if FitsIn (scene.enlargedCanvas scale) limit then .ok (scene.enlargedCanvas scale)
      else .error (.range (.sceneTooLarge limit)) := by
  split
  · next fits => exact frameSize_of_fits bound fits
  · next tooLarge => exact frameSize_of_not_fits tooLarge

/-! ## Drawing -/

theorem render_of_not_fits {scene : Scene} {scale : Nat}
    (tooLarge : ¬ FitsIn (scene.enlargedCanvas scale) maxFrameSide) (flags : Flags)
    (source : SpriteSource σ) (state : σ) :
    scene.render flags source scale state =
      ⟨.error (.user (.range (.sceneTooLarge maxFrameSide))), scene.tiles, state⟩ := by
  rw [render, frameSize_of_not_fits tooLarge]

theorem fits_of_render {scene : Scene} {flags : Flags} {source : SpriteSource σ} {scale : Nat}
    {state : σ} {frames : List Image}
    (rendered : (scene.render flags source scale state).answer = .ok frames) :
    FitsIn (scene.enlargedCanvas scale) maxFrameSide := by
  by_contra tooLarge
  simp [render_of_not_fits tooLarge] at rendered

theorem areFrames_of_render {scene : Scene} {flags : Flags} {source : SpriteSource σ}
    {scale : Nat} {state : σ} {frames : List Image}
    (rendered : (scene.render flags source scale state).answer = .ok frames) :
    AreFrames (scene.enlargedCanvas scale) frames := by
  refine ⟨length_of_render rendered, ?_⟩
  intro frame member
  have inOk := List.mem_map_of_mem (f := Except.ok (ε := RenderError)) member
  -- Every frame is the canvas of one wobble, on which the layer of its tiles is drawn.
  rw [map_ok_of_render rendered] at inOk
  obtain ⟨wobble, -, answered⟩ := List.mem_map.mp inOk
  obtain ⟨layer, drawn, rfl⟩ := map_eq_ok_iff.mp answered
  obtain ⟨width, height⟩ := size_of_drawTiles source scene.bounds.projection drawn
  simp [frameOf, enlargedCanvas, width, height, blank]

end Scene

/-! ## Animations -/

namespace Animation

section
variable {first frame : Image}

theorem checkSides_eq_ok_iff :
    checkSides frame = .ok () ↔ FitsIn (frame.width, frame.height) maxFrameSide := by
  unfold checkSides FitsIn
  split
  · simp; omega
  · split
    · simp; omega
    · simp; omega

theorem checkFrame_eq_ok_iff :
    checkFrame first frame = .ok () ↔ FitsIn (frame.width, frame.height) maxFrameSide ∧
      (frame.width, frame.height) = (first.width, first.height) := by
  rw [checkFrame, check_bind_eq_ok_iff, checkSides_eq_ok_iff, Prod.mk.injEq]
  by_cases same : frame.width = first.width ∧ frame.height = first.height <;> simp [same]

end

/-- Frames of one size are an animation, unless they are too large. -/
theorem ofFrames_of_areFrames {size : Nat × Nat} {frames : List Image}
    (sized : AreFrames size frames) (fits : FitsIn size maxFrameSide) (delay : Nat) :
    ∃ animation, ofFrames frames delay = .ok (some animation) := by
  obtain ⟨length, all⟩ := sized
  cases frames with
  | nil => simp at length
  | cons first rest =>
    obtain ⟨rfl, later⟩ := List.forall_mem_cons.mp all
    have accepted : rest.forM (checkFrame first) = .ok () :=
      forM_eq_ok_iff.mpr fun frame member =>
        checkFrame_eq_ok_iff.mpr ⟨later frame member ▸ fits, later frame member⟩
    rw [ofFrames, checkSides_eq_ok_iff.mpr fits, ok_bind, accepted, ok_bind]
    exact ⟨_, rfl⟩

end Animation

/-! ## The engine -/

theorem Engine.answer_renderScene (engine : Engine) (fs : FileSystem) (scene : Scene)
    (flags : Flags) (cache : SpriteCache) :
    (engine.renderScene fs scene flags).answer cache =
      match scene.frameSize engine.config.render.scale engine.config.render.maxFrameSize with
      | .error e => (.error (.user e), cache)
      | .ok _ =>
        let drawn := scene.render flags (engine.source fs) engine.config.render.scale cache
        (drawn.answer, drawn.state) := by
  rw [renderScene]
  dsimp only
  rw [Fetch.answer_bind]
  cases scene.frameSize engine.config.render.scale engine.config.render.maxFrameSize <;> rfl

/-- The size of a frame is that of the enlarged canvas, if both sides are within the limit. Frames
that are drawn have this size, which is within the limit of an animation and, for an engine, within
the configured one; nothing else can be wrong with their sizes. A scene that is too large fails
before anything is asked of the source, so nothing changes. -/
theorem frames_fit (scene : Scene) :
    (∀ (scale : Nat) (limit : UInt32),
        scene.frameSize scale limit.toNat =
          if FitsIn (scene.enlargedCanvas scale) limit.toNat then .ok (scene.enlargedCanvas scale)
          else .error (.range (.sceneTooLarge limit.toNat))) ∧
      (∀ (σ : Type) (flags : Flags) (source : SpriteSource σ) (scale : Nat) (state : σ),
        let size := scene.enlargedCanvas scale
        let drawn := scene.render flags source scale state
        (∀ frames, drawn.answer = .ok frames →
            AreFrames size frames ∧ 1 ≤ size.1 ∧ 1 ≤ size.2 ∧ FitsIn size maxFrameSide ∧
              ∀ delay, ∃ animation, Animation.ofFrames frames delay = .ok (some animation)) ∧
          (¬ FitsIn size maxFrameSide →
            drawn =
              ⟨.error (.user (.range (.sceneTooLarge maxFrameSide))), scene.tiles, state⟩)) ∧
      ∀ (engine : Engine) (fs : FileSystem) (flags : Flags) (cache : SpriteCache),
        let render := engine.config.render
        let size := scene.enlargedCanvas render.scale
        let drawn := (engine.renderScene fs scene flags).answer cache
        (∀ frames, drawn.1 = .ok frames →
            AreFrames size frames ∧ FitsIn size maxFrameSide ∧ FitsIn size render.maxFrameSize) ∧
          (¬ (FitsIn size render.maxFrameSize ∧ FitsIn size maxFrameSide) →
            ∃ limit, (limit = render.maxFrameSize ∨ limit = maxFrameSide) ∧
              drawn = (.error (.user (.range (.sceneTooLarge limit))), cache)) := by
  refine ⟨?_, ?_, ?_⟩
  · intro scale limit
    exact Scene.frameSize_eq (Nat.le_of_lt_succ limit.toNat_lt)
  · intro σ flags source scale state
    refine ⟨?_, fun tooLarge => Scene.render_of_not_fits tooLarge flags source state⟩
    intro frames rendered
    have sized := Scene.areFrames_of_render rendered
    have fits := Scene.fits_of_render rendered
    obtain ⟨width, height⟩ := scene.enlargedCanvas_pos scale
    exact ⟨sized, width, height, fits, Animation.ofFrames_of_areFrames sized fits⟩
  · intro engine fs flags cache
    have answered := engine.answer_renderScene fs scene flags cache
    refine ⟨?_, ?_⟩
    · intro frames rendered
      rw [answered] at rendered
      cases checked : scene.frameSize engine.config.render.scale
          engine.config.render.maxFrameSize with
      | error e => simp [checked] at rendered
      | ok size =>
        rw [checked] at rendered
        obtain ⟨rfl, configured⟩ := Scene.fits_of_frameSize checked
        exact ⟨Scene.areFrames_of_render rendered, Scene.fits_of_render rendered, configured⟩
    · intro tooLarge
      cases checked : scene.frameSize engine.config.render.scale
          engine.config.render.maxFrameSize with
      | error e =>
        obtain rfl := Scene.error_of_frameSize checked
        refine ⟨engine.config.render.maxFrameSize, .inl rfl, ?_⟩
        rw [answered, checked]
      | ok size =>
        -- The configured limit is kept, so it is that of an animation which is exceeded.
        obtain ⟨rfl, configured⟩ := Scene.fits_of_frameSize checked
        have exceeded := fun fits => tooLarge ⟨configured, fits⟩
        refine ⟨maxFrameSide, .inr rfl, ?_⟩
        rw [answered, checked]
        dsimp only
        rw [Scene.render_of_not_fits exceeded]

/-- A scene as wide as what is not a number, and a scene that is endless, with a source that counts
what it is asked for. -/
theorem frames_fit_extremes :
    let source : SpriteSource Nat :=
      { palette := throw .undecodable
        plate := throw .undecodable
        sprite := fun _ _ => do modify (· + 1); pure none }
    let baba := Tile.new "baba" default [] TileMetadata.text
    let formless : Scene := ⟨{ Envelope.none with width := Binary64.noValue }, [baba]⟩
    let endless : Scene := ⟨{ Envelope.none with width := Binary64.infinity false }, [baba]⟩
    let engine : Engine := ⟨Config.standard [], ⟨[]⟩⟩
    (∃ frames, (formless.render default source 0 5).answer = .ok frames ∧
      AreFrames (1, 1) frames ∧ FitsIn (1, 1) maxFrameSide) ∧
      endless.render default source 2 5 =
        ⟨.error (.user (.range (.sceneTooLarge maxFrameSide))), [baba], 5⟩ ∧
      ∃ limit, (limit = 4096 ∨ limit = maxFrameSide) ∧
        (engine.renderScene ⟨[], []⟩ endless default).answer .empty =
          (.error (.user (.range (.sceneTooLarge limit))), .empty) := by
  intro source baba formless endless engine
  have small : formless.enlargedCanvas 0 = (1, 1) := by decide +kernel
  have large : ¬ FitsIn (endless.enlargedCanvas 2) maxFrameSide := by decide +kernel
  obtain ⟨-, drawn, -⟩ := frames_fit formless
  obtain ⟨-, refused, refusedByEngine⟩ := frames_fit endless
  refine ⟨?_, ?_, ?_⟩
  · have rendered : ∃ frames, (formless.render default source 0 5).answer = .ok frames := by
      rw [Scene.render_of_fits (Scene.frameSize_of_fits (by decide) (by rw [small]; decide))]
      exact ⟨_, rfl⟩
    obtain ⟨frames, rendered⟩ := rendered
    obtain ⟨sized, -, -, fits, -⟩ := (drawn Nat default source 0 5).1 frames rendered
    rw [small] at sized fits
    exact ⟨frames, rendered, sized, fits⟩
  · exact (refused Nat default source 2 5).2 large
  · exact (refusedByEngine engine ⟨[], []⟩ default .empty).2 fun fits => large fits.2

end IsoScene
