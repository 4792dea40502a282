import IsoScene.Proofs.FileSystem.Ancestors
import IsoScene.Proofs.FrameSize

/-! # Configurations that are found, loaded and used

The search for a configuration file looks into one directory after another, upwards, and stops at
the first that has one (`findFrom_eq_some_iff`, `findFrom_eq_none_iff`). What is loaded from a file
has passed every check (`problems_of_loadFile`), and it knows the directory of its file
(`parent?_of_loadFile`).

A configuration without problems means what it says (`IsUsable`): its background is never the one
that stands in for a background that cannot be read, and its limit is within that of an animation, so
that a scene which is small enough for it is small enough to be drawn (`frameSize_of_isUsable`).
-/

namespace IsoScene.Config

variable {fs : FileSystem} {start file : List Char}

/-! ## Finding -/

/-- The place of the configuration file so many levels up. -/
def fileAbove? (start : List Char) (levels : Nat) : Option (List Char) :=
  (Path.up? levels start).map fun directory => Path.join directory fileName.toList

/-- The file is there, and there is none in the directories on the way to it. -/
def IsNearest (fs : FileSystem) (start file : List Char) : Prop :=
  ∃ levels, fileAbove? start levels = some file ∧ fs.exists? file = true ∧
    ∀ nearer < levels, ∀ other, fileAbove? start nearer = some other → fs.exists? other = false

/-- No directory on the way up has the file. -/
def IsNowhere (fs : FileSystem) (start : List Char) : Prop :=
  ∀ levels other, fileAbove? start levels = some other → fs.exists? other = false

theorem getElem?_candidates (start : List Char) (levels : Nat) :
    (candidates start)[levels]? = fileAbove? start levels := by
  rw [candidates, List.getElem?_map, fileAbove?]
  cases levels with
  | zero => rfl
  | succ levels => rw [List.getElem?_cons_succ, Path.getElem?_ancestors]

theorem findFrom_eq_some_iff : findFrom fs start = some file ↔ IsNearest fs start file := by
  rw [findFrom, List.find?_eq_some_iff_getElem]
  constructor
  · rintro ⟨present, levels, inRange, found, nearer⟩
    refine ⟨levels, ?_, present, fun below isBelow other place => ?_⟩
    · rw [← getElem?_candidates, List.getElem?_eq_getElem inRange, found]
    · rw [← getElem?_candidates, List.getElem?_eq_getElem (isBelow.trans inRange)] at place
      obtain rfl := Option.some.inj place
      simpa using nearer below isBelow
  · rintro ⟨levels, place, present, nearer⟩
    rw [← getElem?_candidates] at place
    obtain ⟨inRange, found⟩ := List.getElem?_eq_some_iff.mp place
    refine ⟨present, levels, inRange, found, fun below isBelow => ?_⟩
    have absent := nearer below isBelow (candidates start)[below] (by
      rw [← getElem?_candidates, List.getElem?_eq_getElem (isBelow.trans inRange)])
    simp [absent]

theorem findFrom_eq_none_iff : findFrom fs start = none ↔ IsNowhere fs start := by
  rw [findFrom, List.find?_eq_none, IsNowhere]
  constructor
  · intro absent levels other place
    rw [← getElem?_candidates] at place
    simpa using absent other (List.mem_of_getElem? place)
  · intro absent other member
    obtain ⟨levels, place⟩ := List.mem_iff_getElem?.mp member
    rw [getElem?_candidates] at place
    simp [absent levels other place]

/-! ## Loading -/

/-- The file from which a configuration is loaded, if there is one: the given one, else the nearest
one from the working directory upwards. -/
inductive LoadsFrom (fs : FileSystem) : Option (List Char) → Option (List Char) → Prop
  | given (file : List Char) : LoadsFrom fs (some file) (some file)
  | nearest {file : List Char} (found : IsNearest fs fs.workingPath file) :
      LoadsFrom fs none (some file)
  | nowhere (missing : IsNowhere fs fs.workingPath) : LoadsFrom fs none none

theorem loadsFrom (fs : FileSystem) (given : Option (List Char)) :
    LoadsFrom fs given (given.or (find fs)) := by
  cases given with
  | some file => exact .given file
  | none =>
    rw [Option.none_or, find]
    cases found : findFrom fs fs.workingPath with
    | none => exact .nowhere (findFrom_eq_none_iff.mp found)
    | some file => exact .nearest (findFrom_eq_some_iff.mp found)

theorem baseDirectory_of_ofDatum? {allowSurplus : Bool} {baseDirectory : List Char} {datum : Datum}
    {config : Config} (read : ofDatum? allowSurplus baseDirectory datum = some config) :
    config.baseDirectory = baseDirectory := by
  unfold ofDatum? at read
  obtain ⟨fields, -, read⟩ := Option.bind_eq_some_iff.mp read
  obtain ⟨assets, -, read⟩ := Option.bind_eq_some_iff.mp read
  obtain ⟨render, -, ⟨⟩⟩ := Option.bind_eq_some_iff.mp read
  rfl

theorem load_eq (fs : FileSystem) (given : Option (List Char)) :
    load fs given =
      (given.or (find fs)).elim (.ok (standard fs.workingPath)) (loadFile fs) := by
  rw [load]
  cases given.or (find fs) <;> rfl

/-- A file is loaded if it can be read, and what it says has no problems. -/
theorem loadFile_eq_ok_iff {config : Config} :
    loadFile fs file = .ok config ↔
      ∃ text, fs.readText file = some text ∧
        ofText? ((Path.parent? file).getD []) text = some config ∧ config.problems = [] := by
  unfold loadFile
  cases fs.readText file with
  | none => simp
  | some text =>
    cases read : ofText? ((Path.parent? file).getD []) text with
    | none => simp [read]
    | some other =>
      simp only [List.isEmpty_iff, Option.some.injEq, exists_eq_left', read]
      split
      · next sound =>
        rw [Except.ok.injEq, iff_self_and]
        rintro rfl
        exact sound
      · next problems =>
        simp only [reduceCtorEq, false_iff, not_and]
        rintro rfl
        exact problems

theorem problems_of_loadFile {config : Config} (loaded : loadFile fs file = .ok config) :
    config.problems = [] := by
  obtain ⟨text, -, -, sound⟩ := loadFile_eq_ok_iff.mp loaded
  exact sound

theorem parent?_of_loadFile {config : Config} (loaded : loadFile fs file = .ok config) :
    Path.parent? file = some config.baseDirectory := by
  obtain ⟨text, read, understood, -⟩ := loadFile_eq_ok_iff.mp loaded
  obtain ⟨parent, found⟩ := FileSystem.exists_parent?_of_readText read
  obtain ⟨datum, -, understood⟩ := Option.bind_eq_some_iff.mp understood
  rw [found, baseDirectory_of_ofDatum? understood, found, Option.getD_some]

/-! ## Using -/

/-- A configuration that can be used as it is. -/
structure IsUsable (config : Config) : Prop where
  scale_pos : 0 < config.render.scale
  limit_pos : 0 < config.render.maxFrameSize
  limit_le : config.render.maxFrameSize ≤ maxFrameSide
  background : ∃ color, config.backgroundColor = .ok color
  ground : ∃ c ∈ config.render.ground.toList, Text.isBlank c = false
  sprites : config.assets.sprites.isEmpty = false

theorem problems_eq_nil_iff {config : Config} : config.problems = [] ↔ IsUsable config := by
  unfold problems
  dsimp only
  simp only [List.append_eq_nil_iff]
  constructor
  · rintro ⟨⟨⟨⟨scale, limit⟩, background⟩, ground⟩, sprites⟩
    have inRange : config.render.maxFrameSize ≠ 0 ∧ config.render.maxFrameSize ≤ maxFrameSide := by
      simpa using limit
    refine ⟨Nat.pos_of_ne_zero (by simpa using scale), by omega, by omega, ?_, ?_, ?_⟩
    · split at background
      · exact ⟨_, by assumption⟩
      · cases background
    · simpa using ground
    · simpa using sprites
  · rintro ⟨scale_pos, limit_pos, limit_le, ⟨color, parsed⟩, ground, sprites⟩
    refine ⟨⟨⟨⟨if_neg scale_pos.ne', if_neg (by omega)⟩, by rw [parsed]⟩, if_neg ?_⟩, if_neg ?_⟩
    · simpa using ground
    · simp [sprites]

theorem isUsable_standard (baseDirectory : List Char) : IsUsable (standard baseDirectory) where
  scale_pos := (by decide : 0 < RenderConfig.standard.scale)
  limit_pos := (by decide : 0 < RenderConfig.standard.maxFrameSize)
  limit_le := (by decide : RenderConfig.standard.maxFrameSize ≤ maxFrameSide)
  background :=
    ⟨Flags.standardBackground,
      (by decide +kernel : Rgba.parse RenderConfig.standard.background.toList = .ok _)⟩
  ground := ⟨'t', (by decide +kernel : 't' ∈ RenderConfig.standard.ground.toList), by decide⟩
  sprites := (by decide : AssetConfig.standard.sprites.isEmpty = false)

theorem backgroundColor_of_isUsable {config : Config} (usable : IsUsable config) :
    config.backgroundColor = .ok config.background := by
  obtain ⟨color, parsed⟩ := usable.background
  rw [background, parsed]

/-- A scene that is small enough for the configuration is small enough to be drawn. -/
theorem frameSize_of_isUsable {config : Config} (usable : IsUsable config) {scene : Scene}
    {size : Nat × Nat}
    (accepted : scene.frameSize config.render.scale config.render.maxFrameSize = .ok size) :
    scene.frameSize config.render.scale maxFrameSide = .ok size := by
  obtain ⟨rfl, width, height⟩ := Scene.fits_of_frameSize accepted
  have limit := usable.limit_le
  exact Scene.frameSize_of_fits (by decide) ⟨width.trans limit, height.trans limit⟩

theorem answer_renderScene_of_isUsable {engine : Engine} (usable : IsUsable engine.config)
    (fs : FileSystem) {scene : Scene} {size : Nat × Nat}
    (accepted : scene.frameSize engine.config.render.scale engine.config.render.maxFrameSize =
      .ok size) (flags : Flags) (cache : SpriteCache) :
    (engine.renderScene fs scene flags).answer cache =
      let drawn := drawLayers (engine.source fs) scene.bounds.projection scene.blank wobbles
        scene.tiles cache
      let frame := frameOf flags.background.floored engine.config.render.scale
      (drawn.answer.map (·.map frame), drawn.state) := by
  rw [Engine.answer_renderScene, accepted,
    Scene.render_of_fits (frameSize_of_isUsable usable accepted)]

/-- From an absolute directory, the configuration file that is found is that of the nearest directory
upwards that has one. A configuration is loaded from the given file, else from the nearest one from
the working directory, else it has its defaults, seen from the working directory; if it is loaded it
has no problems, and it is seen from the directory of its file. Without problems its background is
what is written there, and a scene that passes the check of its size is drawn, as it passes the other
check too, with the same size. -/
theorem nearest_and_usable (fs : FileSystem) :
    (∀ start, Path.isAbsolute start = true →
        (∀ levels, Path.IsAbove start levels (Path.up? levels start)) ∧
          (∀ file, findFrom fs start = some file ↔ IsNearest fs start file) ∧
          (findFrom fs start = none ↔ IsNowhere fs start)) ∧
      (∀ given, ∃ source, LoadsFrom fs given source ∧
        load fs given = source.elim (.ok (standard fs.workingPath)) (loadFile fs) ∧
          ∀ config, load fs given = .ok config → config.problems = [] ∧
            ∀ file ∈ source, Path.parent? file = some config.baseDirectory) ∧
      ∀ engine : Engine, engine.config.problems = [] →
        let render := engine.config.render
        Rgba.parse render.background.toList = .ok engine.config.background ∧
          ∀ scene size, Scene.frameSize scene render.scale render.maxFrameSize = .ok size →
            scene.frameSize render.scale maxFrameSide = .ok size ∧
              ∀ flags cache, (engine.renderScene fs scene flags).answer cache =
                let drawn := drawLayers (engine.source fs) scene.bounds.projection scene.blank
                  wobbles scene.tiles cache
                let frame := frameOf flags.background.floored render.scale
                (drawn.answer.map (·.map frame), drawn.state) := by
  refine ⟨fun start absolute => ?_, fun given => ?_, fun engine sound => ?_⟩
  · exact ⟨Path.isAbove_up? absolute, fun _ => findFrom_eq_some_iff, findFrom_eq_none_iff⟩
  · refine ⟨given.or (find fs), loadsFrom fs given, load_eq fs given, fun config loaded => ?_⟩
    rw [load_eq] at loaded
    cases source : given.or (find fs) with
    | none =>
      rw [source] at loaded
      obtain rfl := Except.ok.inj loaded
      exact ⟨problems_eq_nil_iff.mpr (isUsable_standard _), nofun⟩
    | some file =>
      rw [source] at loaded
      refine ⟨problems_of_loadFile loaded, fun other same => ?_⟩
      obtain rfl := Option.some.inj same
      exact parent?_of_loadFile loaded
  · have usable := problems_eq_nil_iff.mp sound
    exact ⟨backgroundColor_of_isUsable usable, fun scene size accepted =>
      ⟨frameSize_of_isUsable usable accepted, answer_renderScene_of_isUsable usable fs accepted⟩⟩

/-- The working directory is two levels below a directory with a configuration file, and three below
another one. -/
theorem nearest_and_usable_two_files :
    let near := "[render]\nscale = 3\nbackground = \"#102030\"\n"
    let far := "[render]\nscale = 0\n"
    let fs : FileSystem :=
      ⟨[(["a"], .directory), (["a", "b"], .directory), (["a", "b", "c"], .directory),
        (["tilescape.toml"], .file (.bytes far.toUTF8)),
        (["a", "tilescape.toml"], .file (.bytes near.toUTF8))], ["a", "b", "c"]⟩
    let start := "/a/b/c".toList
    let file := "/a/tilescape.toml".toList
    let config : Config :=
      ⟨AssetConfig.standard, ⟨600, 3, 4096, "#102030", Flags.standardGround⟩, "/a".toList⟩
    let engine : Engine := ⟨config, ⟨[]⟩⟩
    let scene : Scene := ⟨Envelope.none, []⟩
    (Path.isAbsolute start = true ∧ IsNearest fs start file) ∧
      (LoadsFrom fs none (some file) ∧ load fs none = .ok config ∧ config.problems = [] ∧
        Path.parent? file = some config.baseDirectory) ∧
      Rgba.parse config.render.background.toList = .ok config.background ∧
      scene.frameSize 3 4096 = .ok (144, 108) ∧ scene.frameSize 3 maxFrameSide = .ok (144, 108) ∧
      ∃ frames, (engine.renderScene fs scene default).answer .empty = (.ok frames, .empty) := by
  intro near far fs start file config engine scene
  obtain ⟨searching, loading, meaning⟩ := nearest_and_usable fs
  have absolute : Path.isAbsolute start = true := by decide
  have found : findFrom fs fs.workingPath = some file := by decide +kernel
  have nearest := ((searching start absolute).2.1 file).mp found
  have loaded : load fs none = .ok config := by decide +kernel
  obtain ⟨source, origin, -, good⟩ := loading none
  obtain ⟨sound, parents⟩ := good config loaded
  have pinned : source = some file := by
    cases origin with
    | nearest isNearest => exact (findFrom_eq_some_iff.mpr isNearest).symm.trans found
    | nowhere missing => exact (findFrom_eq_none_iff.mpr missing).symm.trans found
  subst pinned
  have accepted : scene.frameSize 3 4096 = .ok (144, 108) := by
    rw [Scene.frameSize, Scene.canvasSize_none]
    rfl
  obtain ⟨background, drawing⟩ := meaning engine sound
  obtain ⟨again, drawn⟩ := drawing scene (144, 108) accepted
  exact ⟨⟨absolute, nearest⟩, ⟨origin, loaded, sound, parents file rfl⟩, background, accepted,
    again, _, drawn default .empty⟩

end IsoScene.Config
