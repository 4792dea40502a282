import IsoScene.CommandLine.Run
import IsoScene.Proofs.Animation

/-! # How a run ends

A run goes through the stages of its task in order, and the first one that fails decides the exit
code (`FailsFirst`, `run_outcome`). What the later stages work on is an engine and the text of the
named file or of standard input (`SceneText`, `prepare_eq_ok_iff`). Nothing is written before the
last stage. If no stage fails, the animation is where it should be, and the frames are, too: they
are saved first, and the animation has another name than any of them (`save_spec`).
-/

namespace IsoScene.CommandLine

open Fetch (answer answer_bind_eq_ok)

/-! ## What is needed -/

/-- The text of a scene stands in the named file. A single dash stands for standard input. -/
inductive SceneText (fs : FileSystem) (stdin : Option (List Char)) (input text : List Char) :
    Prop where
  | standard (dash : input = ['-']) (given : stdin = some text) : SceneText fs stdin input text
  | file (named : input ≠ ['-'])
      (found : fs.lookup input = some (.file (.bytes (String.ofList text).toUTF8))) :
      SceneText fs stdin input text

/-- What a task starts with: an engine with the configuration that is asked for, and the text of a
scene. -/
structure Prepared (fs : FileSystem) (stdin : Option (List Char)) (invocation : Invocation)
    (engine : Engine) (text : List Char) : Prop where
  engine : ∃ config, Config.load fs invocation.config = .ok config ∧
    Engine.load fs config = .ok engine
  text : SceneText fs stdin invocation.task.input text

section
variable {fs : FileSystem} {stdin : Option (List Char)} {input text : List Char}

theorem readScene_eq_ok_iff :
    readScene fs stdin input = .ok text ↔ SceneText fs stdin input text := by
  have read : readScene fs stdin input = .ok text ↔
      (if input = ['-'] then stdin else fs.readText input) = some text := by
    rw [readScene]
    cases (if input = ['-'] then stdin else fs.readText input) <;> simp
  rw [read]
  split
  · next dash =>
    refine ⟨.standard dash, fun given => ?_⟩
    cases given with
    | standard _ given => exact given
    | file named _ => exact absurd dash named
  · next named =>
    rw [FileSystem.readText_eq_some_iff]
    refine ⟨.file named, fun given => ?_⟩
    cases given with
    | standard dash _ => exact absurd dash named
    | file _ found => exact found

theorem readScene_of_missing (missing : ∀ text, ¬ SceneText fs stdin input text) :
    readScene fs stdin input = .error (.input input) := by
  cases read : readScene fs stdin input with
  | ok text => exact absurd (readScene_eq_ok_iff.mp read) (missing text)
  | error failure =>
    unfold readScene at read
    split at read
    · cases read
    · exact read.symm

theorem prepare_eq_ok_iff {invocation : Invocation} {engine : Engine} :
    prepare fs stdin invocation.config invocation.task.input = .ok (engine, text) ↔
      Prepared fs stdin invocation engine text := by
  rw [prepare]
  constructor
  · intro prepared
    obtain ⟨config, configured, prepared⟩ := bind_eq_ok_iff.mp prepared
    obtain ⟨_, loaded, prepared⟩ := bind_eq_ok_iff.mp prepared
    obtain ⟨_, read, ⟨⟩⟩ := bind_eq_ok_iff.mp prepared
    exact ⟨⟨config, mapError_eq_ok_iff.mp configured, mapError_eq_ok_iff.mp loaded⟩,
      readScene_eq_ok_iff.mp read⟩
  · rintro ⟨⟨config, configured, loaded⟩, given⟩
    rw [configured, Except.mapError, ok_bind, loaded, Except.mapError, ok_bind,
      readScene_eq_ok_iff.mpr given]
    rfl

theorem Prepared.unique {invocation : Invocation} {engine other : Engine} {again : List Char}
    (prepared : Prepared fs stdin invocation engine text)
    (preparedAgain : Prepared fs stdin invocation other again) : engine = other ∧ text = again := by
  have same := (prepare_eq_ok_iff.mpr prepared).symm.trans (prepare_eq_ok_iff.mpr preparedAgain)
  exact Prod.mk.inj (Except.ok.inj same)

end

/-! ## Stages -/

inductive Stage where
  | configuration
  | catalog
  | input
  | parse
  | render
  | output
deriving DecidableEq, Repr

def Stage.exitCode : Stage → Nat
  | configuration => 2
  | input => 2
  | _ => 1

namespace Stage

variable {stage : Stage}

theorem exitCode_eq_two_iff : stage.exitCode = 2 ↔ stage = configuration ∨ stage = input := by
  cases stage <;> decide

theorem exitCode_eq_one_iff : stage.exitCode = 1 ↔ stage ≠ configuration ∧ stage ≠ input := by
  cases stage <;> decide

theorem exitCode_ne_zero (stage : Stage) : stage.exitCode ≠ 0 := by
  cases stage <;> decide

end Stage

/-- The stages in front of those that depend on the task. -/
def preparing : List Stage := [.configuration, .catalog, .input]

def Task.stages : Task → List Stage
  | render .. => preparing ++ [.parse, .render, .output]
  | parse _ => preparing ++ [.parse]

/-- A stage fails if it is reached with all that it needs and has no result. Reading the scene text
needs nothing. -/
inductive Fails (fs : FileSystem) (stdin : Option (List Char)) (invocation : Invocation) :
    Stage → Prop where
  | configuration {e : ConfigError} (failed : Config.load fs invocation.config = .error e) :
    Fails fs stdin invocation .configuration
  | catalog {config : Config} {e : CatalogError}
    (configured : Config.load fs invocation.config = .ok config)
    (failed : Engine.load fs config = .error e) : Fails fs stdin invocation .catalog
  | input (missing : ∀ text, ¬ SceneText fs stdin invocation.task.input text) :
    Fails fs stdin invocation .input
  | parse {engine : Engine} {text : List Char} {e : UserError}
    (prepared : Prepared fs stdin invocation engine text)
    (failed : engine.parse text = .error e) : Fails fs stdin invocation .parse
  | render {engine : Engine} {text : List Char} {scene : Scene} {flags : Flags} {e : RenderError}
    (prepared : Prepared fs stdin invocation engine text)
    (parsed : engine.parse text = .ok (scene, flags))
    (failed : ((engine.renderScene fs scene flags).answer .empty).1 = .error e) :
    Fails fs stdin invocation .render
  | output {engine : Engine} {text input output : List Char} {directory : Option (List Char)}
    {frames : List Image} {e : RenderError}
    (task : invocation.task = .render input output directory)
    (prepared : Prepared fs stdin invocation engine text)
    (rendered : ((engine.render fs text).answer .empty).1 = .ok frames)
    (failed : ((save frames engine.config.render.frameDelay output directory).run.run fs).1 =
      .error e) : Fails fs stdin invocation .output

/-- The stage is the first one of these that fails. -/
def FailsFirstOf (fs : FileSystem) (stdin : Option (List Char)) (invocation : Invocation)
    (stages : List Stage) (stage : Stage) : Prop :=
  FirstFailure (fun other first => other = first ∧ Fails fs stdin invocation other) stages stage

/-- The stage is the first one of the task that fails. -/
def FailsFirst (fs : FileSystem) (stdin : Option (List Char)) (invocation : Invocation)
    (stage : Stage) : Prop :=
  FailsFirstOf fs stdin invocation invocation.task.stages stage

section
variable {fs : FileSystem} {stdin : Option (List Char)} {invocation : Invocation} {stage : Stage}

/-- The stages before parsing are the same for all tasks. -/
theorem prepare_of_failsFirst (first : FailsFirstOf fs stdin invocation preparing stage) :
    ∃ failure, prepare fs stdin invocation.config invocation.task.input = .error failure ∧
      failure.exitCode = stage.exitCode := by
  simp only [FailsFirstOf, preparing, FirstFailure.cons, FirstFailure.nil, and_false, or_false]
    at first
  rcases first with ⟨rfl, failed⟩ | ⟨configurable, ⟨rfl, failed⟩ | ⟨cataloged, rfl, failed⟩⟩
  · cases failed with
    | configuration failed => exact ⟨.config _, by rw [prepare, failed]; rfl, rfl⟩
  · cases failed with
    | catalog configured failed =>
      exact ⟨.catalog _, by rw [prepare, configured, Except.mapError, ok_bind, failed]; rfl, rfl⟩
  · cases failed with
    | input missing =>
      -- The scene text is only read if there is an engine.
      cases configured : Config.load fs invocation.config with
      | error e => exact absurd ⟨rfl, .configuration configured⟩ (configurable .configuration)
      | ok config =>
        cases loaded : Engine.load fs config with
        | error e => exact absurd ⟨rfl, .catalog configured loaded⟩ (cataloged .catalog)
        | ok engine =>
          refine ⟨.input invocation.task.input, ?_, rfl⟩
          simp only [prepare, configured, Except.mapError, ok_bind, loaded,
            readScene_of_missing missing, error_bind]

theorem prepare_of_ready (ready : ∀ stage ∈ preparing, ¬ Fails fs stdin invocation stage) :
    ∃ engine text, Prepared fs stdin invocation engine text := by
  simp only [preparing, List.forall_mem_cons] at ready
  obtain ⟨configurable, cataloged, readable, -⟩ := ready
  cases configured : Config.load fs invocation.config with
  | error e => exact absurd (.configuration configured) configurable
  | ok config =>
    cases loaded : Engine.load fs config with
    | error e => exact absurd (.catalog configured loaded) cataloged
    | ok engine =>
      by_contra unprepared
      refine readable (.input fun text given => unprepared ?_)
      exact ⟨engine, text, ⟨config, configured, loaded⟩, given⟩

/-- The answer to a scene text. -/
theorem answer_render (engine : Engine) (fs : FileSystem) (text : List Char) (cache : SpriteCache) :
    (engine.render fs text).answer cache =
      match engine.parse text with
      | .error e => (.error (.user e), cache)
      | .ok (scene, flags) => (engine.renderScene fs scene flags).answer cache := by
  rw [Engine.render, Fetch.answer_bind]
  cases engine.parse text <;> rfl

theorem invoke_of_prepare_error {failure : Failure}
    (failed : prepare fs stdin invocation.config invocation.task.input = .error failure) :
    invoke fs stdin invocation = (.failed failure, fs) := by
  obtain ⟨config, task⟩ := invocation
  cases task with
  | render input output directory =>
    rw [Task.input] at failed
    rw [invoke]
    dsimp only
    rw [failed]
  | parse input =>
    rw [Task.input] at failed
    rw [invoke]
    dsimp only
    rw [failed]

theorem invoke_render {input output : List Char} {directory : Option (List Char)}
    {engine : Engine} {text : List Char} (prepared : Prepared fs stdin invocation engine text)
    (task : invocation.task = .render input output directory) :
    invoke fs stdin invocation = runRender engine fs text output directory := by
  have ready := prepare_eq_ok_iff.mpr prepared
  rw [task, Task.input] at ready
  rw [invoke, task]
  dsimp only
  rw [ready]

theorem invoke_parse {input : List Char} {engine : Engine} {text : List Char}
    (prepared : Prepared fs stdin invocation engine text)
    (task : invocation.task = .parse input) :
    invoke fs stdin invocation = (runParse engine text, fs) := by
  have ready := prepare_eq_ok_iff.mpr prepared
  rw [task, Task.input] at ready
  rw [invoke, task]
  dsimp only
  rw [ready]

theorem runRender_of_error {engine : Engine} {text output : List Char}
    {directory : Option (List Char)} {e : RenderError}
    (failed : ((engine.render fs text).answer .empty).1 = .error e) :
    runRender engine fs text output directory = (.failed (.scene e), fs) := by
  rw [runRender, failed]

theorem runRender_of_failsFirst {input output : List Char} {directory : Option (List Char)}
    {engine : Engine} {text : List Char}
    (prepared : Prepared fs stdin invocation engine text)
    (task : invocation.task = .render input output directory)
    (first : FailsFirstOf fs stdin invocation [.parse, .render, .output] stage) :
    (runRender engine fs text output directory).1.exitCode = stage.exitCode ∧
      (stage ≠ .output → (runRender engine fs text output directory).2 = fs) := by
  -- A stage that fails has been reached with the same engine and the same text.
  simp only [FailsFirstOf, FirstFailure.cons, FirstFailure.nil, and_false, or_false] at first
  rcases first with ⟨rfl, failed⟩ | ⟨-, ⟨rfl, failed⟩ | ⟨-, rfl, failed⟩⟩
  · cases failed with
    | parse again failed =>
      obtain ⟨rfl, rfl⟩ := prepared.unique again
      rw [runRender_of_error (by rw [answer_render, failed])]
      exact ⟨rfl, fun _ => rfl⟩
  · cases failed with
    | render again parsed failed =>
      obtain ⟨rfl, rfl⟩ := prepared.unique again
      rw [runRender_of_error (by rw [answer_render, parsed]; exact failed)]
      exact ⟨rfl, fun _ => rfl⟩
  · cases failed with
    | output other again rendered failed =>
      obtain ⟨rfl, rfl, rfl⟩ := Task.render.inj (task.symm.trans other)
      obtain ⟨rfl, rfl⟩ := prepared.unique again
      refine ⟨?_, fun last => absurd rfl last⟩
      rw [runRender, rendered]
      dsimp only
      split
      · rfl
      · next saved => simp [saved] at failed

theorem runParse_of_failsFirst {engine : Engine} {text : List Char}
    (prepared : Prepared fs stdin invocation engine text)
    (first : FailsFirstOf fs stdin invocation [.parse] stage) :
    (runParse engine text).exitCode = stage.exitCode := by
  simp only [FailsFirstOf, FirstFailure.cons, FirstFailure.nil, and_false, or_false] at first
  obtain ⟨rfl, failed⟩ := first
  cases failed with
  | parse again failed =>
    obtain ⟨rfl, rfl⟩ := prepared.unique again
    rw [runParse, failed]
    rfl

/-- The first stage that fails decides how the run ends, and only the last one changes files. -/
theorem invoke_of_failsFirst (first : FailsFirst fs stdin invocation stage) :
    (invoke fs stdin invocation).1.exitCode = stage.exitCode ∧
      (stage ≠ .output → (invoke fs stdin invocation).2 = fs) := by
  obtain ⟨later, stages⟩ : ∃ later, invocation.task.stages = preparing ++ later := by
    cases invocation.task <;> exact ⟨_, rfl⟩
  rw [FailsFirst, stages] at first
  rcases FirstFailure.append.mp first with early | ⟨ready, late⟩
  · obtain ⟨failure, failed, code⟩ := prepare_of_failsFirst early
    rw [invoke_of_prepare_error failed]
    exact ⟨code, fun _ => rfl⟩
  · obtain ⟨engine, text, prepared⟩ := prepare_of_ready fun stage member failed =>
      ready stage member stage ⟨rfl, failed⟩
    cases task : invocation.task with
    | render input output directory =>
      rw [task] at stages
      obtain rfl := List.append_cancel_left stages
      rw [invoke_render prepared task]
      exact runRender_of_failsFirst prepared task late
    | parse input =>
      rw [task] at stages
      obtain rfl := List.append_cancel_left stages
      rw [invoke_parse prepared task]
      exact ⟨runParse_of_failsFirst prepared late, fun _ => rfl⟩

theorem invoke_of_no_failure
    (succeeds : ∀ stage ∈ invocation.task.stages, ¬ Fails fs stdin invocation stage) :
    (invoke fs stdin invocation).1.exitCode = 0 := by
  obtain ⟨config, task⟩ := invocation
  cases task with
  | render input output directory =>
    obtain ⟨ready, late⟩ := List.forall_mem_append.mp succeeds
    obtain ⟨engine, text, prepared⟩ := prepare_of_ready ready
    simp only [List.forall_mem_cons] at late
    obtain ⟨parsable, renderable, savable, -⟩ := late
    rw [invoke_render prepared rfl, runRender]
    cases parsed : engine.parse text with
    | error e => exact absurd (.parse prepared parsed) parsable
    | ok result =>
      split
      · next failed =>
        rw [answer_render, parsed] at failed
        exact absurd (.render prepared parsed failed) renderable
      · next frames rendered =>
        split
        · next failed => exact absurd (.output rfl prepared rendered (by rw [failed])) savable
        · rfl
  | parse input =>
    obtain ⟨ready, late⟩ := List.forall_mem_append.mp succeeds
    obtain ⟨engine, text, prepared⟩ := prepare_of_ready ready
    rw [invoke_parse prepared rfl, runParse]
    split
    · next failed =>
      exact absurd (.parse prepared failed) (late _ List.mem_cons_self)
    · rfl

/-- Parsing writes nothing, however it ends. -/
theorem invoke_parse_files {input : List Char} (task : invocation.task = .parse input) :
    (invoke fs stdin invocation).2 = fs := by
  cases prepared : prepare fs stdin invocation.config invocation.task.input with
  | error failure => rw [invoke_of_prepare_error prepared]
  | ok result => rw [invoke_parse (prepare_eq_ok_iff.mp prepared) task]

theorem failsFirst_or_succeeds (fs : FileSystem) (stdin : Option (List Char))
    (invocation : Invocation) :
    (∃ stage, FailsFirst fs stdin invocation stage) ∨
      ∀ stage ∈ invocation.task.stages, ¬ Fails fs stdin invocation stage := by
  rcases Classical.em (∃ stage, FailsFirst fs stdin invocation stage) with first | none
  · exact .inl first
  · refine .inr fun stage member failed => ?_
    exact FirstFailure.forall_not_iff.mp (not_exists.mp none) stage member stage ⟨rfl, failed⟩

theorem exitCode_invoke_eq_iff {code : Nat} (failed : code ≠ 0) :
    (invoke fs stdin invocation).1.exitCode = code ↔
      ∃ stage, FailsFirst fs stdin invocation stage ∧ stage.exitCode = code := by
  constructor
  · intro ends
    rcases failsFirst_or_succeeds fs stdin invocation with ⟨stage, first⟩ | succeeds
    · exact ⟨stage, first, (invoke_of_failsFirst first).1.symm.trans ends⟩
    · exact absurd (ends.symm.trans (invoke_of_no_failure succeeds)) failed
  · rintro ⟨stage, first, rfl⟩
    exact (invoke_of_failsFirst first).1

theorem exitCode_invoke_eq_zero_iff :
    (invoke fs stdin invocation).1.exitCode = 0 ↔
      ∀ stage ∈ invocation.task.stages, ¬ Fails fs stdin invocation stage := by
  refine ⟨fun ends => ?_, invoke_of_no_failure⟩
  refine (failsFirst_or_succeeds fs stdin invocation).resolve_left ?_
  rintro ⟨stage, first⟩
  exact stage.exitCode_ne_zero ((invoke_of_failsFirst first).1.symm.trans ends)

theorem exitCode_failure_ne_zero (failure : Failure) : failure.exitCode ≠ 0 := by
  cases failure <;> simp [Failure.exitCode]

/-- A run that succeeds has saved the frames of its scene. -/
theorem saved_of_exitCode {input output : List Char} {directory : Option (List Char)}
    (task : invocation.task = .render input output directory)
    (success : (invoke fs stdin invocation).1.exitCode = 0) :
    ∃ engine text frames,
      Prepared fs stdin invocation engine text ∧
        ((engine.render fs text).answer .empty).1 = .ok frames ∧
        (save frames engine.config.render.frameDelay output directory).run.run fs =
          (.ok (), (invoke fs stdin invocation).2) := by
  cases prepared : prepare fs stdin invocation.config invocation.task.input with
  | error failure =>
    rw [invoke_of_prepare_error prepared] at success
    exact absurd success (exitCode_failure_ne_zero failure)
  | ok result =>
    obtain ⟨engine, text⟩ := result
    rw [prepare_eq_ok_iff] at prepared
    rw [invoke_render prepared task] at success ⊢
    cases rendered : ((engine.render fs text).answer .empty).1 with
    | error e =>
      rw [runRender_of_error rendered] at success
      exact absurd success (exitCode_failure_ne_zero (.scene e))
    | ok frames =>
      refine ⟨engine, text, frames, prepared, rendered, ?_⟩
      simp only [runRender, rendered] at success ⊢
      split at success
      · next e after failed => exact absurd success (exitCode_failure_ne_zero (.scene e))
      · next saved => rw [saved]

end

/-! ## What is saved -/

theorem areFrames_of_answer_render {engine : Engine} {fs : FileSystem} {text : List Char}
    {cache : SpriteCache} {frames : List Image}
    (rendered : ((engine.render fs text).answer cache).1 = .ok frames) :
    ∃ scene flags, engine.parse text = .ok (scene, flags) ∧
      AreFrames (scene.enlargedCanvas engine.config.render.scale) frames := by
  rw [answer_render] at rendered
  split at rendered
  · cases rendered
  · next scene flags parsed =>
    rw [Engine.answer_renderScene] at rendered
    split at rendered
    · cases rendered
    · exact ⟨scene, flags, parsed, Scene.areFrames_of_render rendered⟩

theorem no_slash_frameStem (output : List Char) : '/' ∉ frameStem output := by
  unfold frameStem Path.stem?
  cases named : Path.fileName? output with
  | none => decide
  | some name =>
    exact fun slash =>
      Path.no_slash_of_fileName? named ((Path.isStem_cutName name).subset slash)

/-- The file at the output path holds an animation of the frames. If there is a directory for them,
it holds the frames one by one, under the name of the output file without its suffix and with a
number. -/
structure Saved (after : FileSystem) (frames : List Image) (milliseconds : Nat)
    (output : List Char) (directory : Option (List Char)) : Prop where
  animation : ∃ animation : Animation, animation.Shows frames milliseconds ∧
    after.lookup output = some (.file (.animation animation))
  frames : ∀ framesDirectory, directory = some framesDirectory →
    ∃ name stem, Path.LeadsTo output name ∧ Path.IsStem name stem ∧
      ∀ entry ∈ frames.zip ["_1.png", "_2.png", "_3.png"],
        after.readImage (Path.join framesDirectory (stem ++ entry.2.toList)) = .ok entry.1

/-- The paths of the first three frames. -/
theorem framePath_of_ending {index : Nat} {ending : String}
    (listed : ["_1.png", "_2.png", "_3.png"][index]? = some ending) (directory stem : List Char) :
    FileSystem.framePath directory stem index = Path.join directory (stem ++ ending.toList) := by
  have ends : '_' :: (toString (index + 1)).toList ++ ".png".toList = ending.toList := by
    match index, listed with
    | 0, rfl => decide
    | 1, rfl => decide
    | 2, rfl => decide
  rw [← ends, FileSystem.framePath, List.append_assoc]

/-- The animation and, if there is a directory for them, the frames are saved. The animation does
not replace a frame, as the name of a frame is longer than its own stem. -/
theorem save_spec {fs after : FileSystem} {frames : List Image} {milliseconds : Nat}
    {output : List Char} {directory : Option (List Char)} (tree : fs.IsTree)
    (nonempty : frames ≠ [])
    (saved : (save frames milliseconds output directory).run.run fs = (.ok (), after)) :
    Saved after frames milliseconds output directory := by
  cases directory with
  | none =>
    obtain ⟨name, animation, -, -, shows, found⟩ :=
      Animation.saveAnimation_spec tree nonempty saved
    exact ⟨⟨animation, shows, found⟩, nofun⟩
  | some framesDirectory =>
    have inOrder : answer (FileSystem.saveFrames frames framesDirectory (frameStem output) >>=
      fun _ => FileSystem.saveAnimation frames milliseconds output) fs = (.ok (), after) := saved
    obtain ⟨paths, between, first, last⟩ := answer_bind_eq_ok.mp inOrder
    obtain ⟨keeps, framesFound⟩ :=
      FileSystem.saveFrames_spec (no_slash_frameStem output) tree first
    obtain ⟨name, animation, leads, keepsFrames, shows, found⟩ :=
      Animation.saveAnimation_spec (keeps.tree tree) nonempty last
    have stem : frameStem output = (Path.cutName name).1 := by
      rw [frameStem, Path.stem?, Path.fileName?_eq leads]
      rfl
    refine ⟨⟨animation, shows, found⟩, ?_⟩
    rintro _ ⟨⟩
    refine ⟨name, frameStem output, leads, Path.isStem_iff.mpr stem, ?_⟩
    rintro ⟨frame, ending⟩ member
    obtain ⟨index, inZip⟩ := List.mem_iff_getElem?.mp member
    obtain ⟨inFrames, listed⟩ := List.getElem?_zip_eq_some.mp inZip
    rw [← framePath_of_ending listed]
    refine FileSystem.readImage_framePath (no_slash_frameStem output) ?_
    -- Writing the animation can only take away files with its own name.
    have numbered : (frame, index) ∈ frames.zipIdx := List.mem_zipIdx_iff_getElem?.mpr inFrames
    refine keepsFrames.lookup_eq (keeps.tree tree) (framesFound (frame, index) numbered)
      fun other framed => ?_
    rw [FileSystem.fileName?_framePath framesDirectory (no_slash_frameStem output),
      Option.some.injEq] at framed
    intro same
    have sameName : other = name := String.ofList_injective (List.mem_singleton.mp same)
    rw [← framed, stem] at sameName
    exact FileSystem.frameName_ne index sameName

/-! ## Runs -/

/-- The first stage that fails decides the exit code. Parsing changes nothing, and rendering changes
nothing unless it comes to its last stage. If rendering succeeds, what it has written is there. -/
theorem run_outcome {fs : FileSystem} {arguments : List String} {invocation : Invocation}
    (tree : fs.IsTree) (wellFormed : read arguments = .ok invocation)
    (stdin : Option (List Char)) :
    let outcome := (run arguments stdin fs).1
    let after := (run arguments stdin fs).2
    ((outcome.exitCode = 2 ↔ FailsFirst fs stdin invocation .configuration ∨
          FailsFirst fs stdin invocation .input) ∧
        (outcome.exitCode = 1 ↔ ∃ stage, FailsFirst fs stdin invocation stage ∧
          stage ≠ .configuration ∧ stage ≠ .input) ∧
        (outcome.exitCode = 0 ↔
          ∀ stage ∈ invocation.task.stages, ¬ Fails fs stdin invocation stage)) ∧
      (∀ input, invocation.task = .parse input → after = fs) ∧
      ∀ input output directory, invocation.task = .render input output directory →
        (∀ stage, FailsFirst fs stdin invocation stage → stage ≠ .output → after = fs) ∧
          (outcome.exitCode = 0 → ∃ engine text frames,
            Prepared fs stdin invocation engine text ∧
              ((engine.render fs text).answer .empty).1 = .ok frames ∧ frames.length = 3 ∧
              Saved after frames engine.config.render.frameDelay output directory) := by
  have runs : run arguments stdin fs = invoke fs stdin invocation := by rw [run, wellFormed]
  rw [runs]
  intro outcome after
  refine ⟨⟨?_, ?_, exitCode_invoke_eq_zero_iff⟩, ?_, ?_⟩
  · rw [exitCode_invoke_eq_iff (by decide)]
    simp only [Stage.exitCode_eq_two_iff, and_or_left, exists_or, exists_eq_right]
  · rw [exitCode_invoke_eq_iff (by decide)]
    simp only [Stage.exitCode_eq_one_iff]
  · intro input task
    exact invoke_parse_files task
  · rintro input output directory task
    refine ⟨fun stage first => (invoke_of_failsFirst first).2, fun success => ?_⟩
    obtain ⟨engine, text, frames, prepared, rendered, saved⟩ := saved_of_exitCode task success
    obtain ⟨_, _, -, three, -⟩ := areFrames_of_answer_render rendered
    exact ⟨engine, text, frames, prepared, rendered, three,
      save_spec tree (List.ne_nil_of_length_pos (by omega)) saved⟩

/-- A catalog without tiles. -/
def someFiles : FileSystem where
  nodes := [(["data"], .directory), (["data", "values.json"], .file (.bytes "\x7b\x7d".toUTF8))]
  workingDirectory := []

def someEngine : Engine := ⟨Config.standard ['/'], ⟨[]⟩⟩

theorem prepare_someFiles :
    prepare someFiles (some []) none ['-'] = .ok (someEngine, []) := by
  -- Engines have no decidable equality, their parts do.
  have parts : (prepare someFiles (some []) none ['-']).toOption.map (fun (engine, text) =>
      (engine.config, engine.catalog.entries, text)) =
      some (someEngine.config, someEngine.catalog.entries, []) := by
    decide +kernel
  cases prepared : prepare someFiles (some []) none ['-'] with
  | error failure => simp [prepared, Except.toOption] at parts
  | ok result =>
    obtain ⟨⟨config, ⟨entries⟩⟩, text⟩ := result
    simp only [prepared, Except.toOption, Option.map_some, Option.some.injEq, Prod.mk.injEq]
      at parts
    obtain ⟨rfl, rfl, rfl⟩ := parts
    rfl

theorem exists_frames_someFiles :
    ∃ frames, ((someEngine.render someFiles []).answer .empty).1 = .ok frames ∧
      AreFrames (96, 72) frames := by
  have renders : ((someEngine.render someFiles []).answer .empty).1.toBool = true := by
    decide +kernel
  have size : (someEngine.parse []).toOption.map (fun parsed => parsed.1.enlargedCanvas 2) =
      some (96, 72) := by
    decide +kernel
  cases rendered : ((someEngine.render someFiles []).answer .empty).1 with
  | error e => simp [rendered, Except.toBool] at renders
  | ok frames =>
    obtain ⟨scene, flags, parsed, sized⟩ := areFrames_of_answer_render rendered
    rw [parsed] at size
    have canvas : scene.enlargedCanvas someEngine.config.render.scale = (96, 72) :=
      Option.some.inj size
    exact ⟨frames, rfl, canvas ▸ sized⟩

theorem save_someFiles {frames : List Image} (sized : AreFrames (96, 72) frames)
    (milliseconds : Nat) :
    ((save frames milliseconds "o.gif".toList (some ['.'])).run.run someFiles).1 = .ok () := by
  obtain ⟨three, sized⟩ := sized
  obtain ⟨first, second, third, rfl⟩ := List.length_eq_three.mp three
  simp only [List.forall_mem_cons, Prod.mk.injEq] at sized
  obtain ⟨⟨width, height⟩, ⟨width₂, height₂⟩, ⟨width₃, height₃⟩, -⟩ := sized
  obtain ⟨_, _, cells, size⟩ := first
  obtain ⟨_, _, cells₂, size₂⟩ := second
  obtain ⟨_, _, cells₃, size₃⟩ := third
  -- Saving looks at the sizes of the frames only.
  subst width height width₂ height₂ width₃ height₃
  rfl

theorem exitCode_someFiles :
    (runRender someEngine someFiles [] "o.gif".toList (some ['.'])).1.exitCode = 0 := by
  obtain ⟨frames, rendered, sized⟩ := exists_frames_someFiles
  have saved := save_someFiles sized someEngine.config.render.frameDelay
  rw [runRender, rendered]
  dsimp only
  split
  · next failed => exact nomatch (congrArg Prod.fst failed).symm.trans saved
  · rfl

/-- The frames of a scene without tiles, saved beside their animation. -/
theorem run_outcome_saved :
    let arguments := ["render", "-", "--output", "o.gif", "--frames-dir", "."]
    let invocation : Invocation := ⟨none, .render ['-'] "o.gif".toList (some ['.'])⟩
    let outcome := (run arguments (some []) someFiles).1
    let after := (run arguments (some []) someFiles).2
    someFiles.IsTree ∧ read arguments = .ok invocation ∧ outcome.exitCode = 0 ∧
      ∃ frames : List Image, frames.length = 3 ∧
        (∃ animation : Animation, animation.Shows frames 600 ∧
          after.lookup "o.gif".toList = some (.file (.animation animation))) ∧
        ∀ entry ∈ frames.zip ["_1.png", "_2.png", "_3.png"],
          after.readImage ("./o".toList ++ entry.2.toList) = .ok entry.1 := by
  intro arguments invocation outcome after
  have tree : someFiles.IsTree := FileSystem.isTree_of_nodes (by decide +kernel)
  have wellFormed : read arguments = .ok invocation := by decide +kernel
  have ready : Prepared someFiles (some []) invocation someEngine [] :=
    prepare_eq_ok_iff.mp prepare_someFiles
  have runs : invoke someFiles (some []) invocation =
      runRender someEngine someFiles [] "o.gif".toList (some ['.']) :=
    invoke_render ready rfl
  have success : outcome.exitCode = 0 := by
    simp only [outcome, run, wellFormed, runs]
    exact exitCode_someFiles
  obtain ⟨-, -, rendering⟩ := run_outcome tree wellFormed (some [])
  obtain ⟨-, saved⟩ := rendering ['-'] "o.gif".toList (some ['.']) rfl
  obtain ⟨engine, text, frames, prepared, -, three, animation, framesSaved⟩ := saved success
  obtain ⟨rfl, rfl⟩ := ready.unique prepared
  obtain ⟨name, stem, leads, isStem, inDirectory⟩ := framesSaved ['.'] rfl
  have named : Path.fileName? "o.gif".toList = some "o.gif".toList := by decide +kernel
  obtain rfl : "o.gif".toList = name :=
    Option.some.inj (named.symm.trans (Path.fileName?_eq leads))
  obtain rfl : stem = ['o'] := (Path.isStem_iff.mp isStem).trans (by decide +kernel)
  exact ⟨tree, wellFormed, success, frames, three, animation, inDirectory⟩

end IsoScene.CommandLine
