import IsoScene.Proofs.FileSystem.Paths

/-! # Changes of a tree of files

In a tree, everything stands in a directory (`IsTree`). A path that leads to no directory then leads
to something in a directory, by the name at the end of the path (`IsTree.directory_or_name`).

Writing a file and creating directories change little: all directories stay, and so do all files
except those with the name of the file that is written (`KeepsBut`). A file that stands where it has
been written is therefore still found by its path as long as only files with other names are written
(`KeepsBut.lookup_eq`).
-/

namespace IsoScene.FileSystem

/-- Whatever stands somewhere below the root stands in a directory. -/
def IsTree (fs : FileSystem) : Prop :=
  ∀ place name, (fs.node? (place ++ [name])).isSome → fs.isDirectoryAt place

section
variable {fs : FileSystem}

theorem isDirectoryAt_iff {place : Place} :
    fs.isDirectoryAt place = true ↔ fs.node? place = some .directory := by
  unfold isDirectoryAt
  split <;> simp_all

theorem isDirectoryAt_root : fs.isDirectoryAt [] = true := rfl

/-- Whether a file system is a tree can be seen from what it lists. -/
theorem isTree_of_nodes (listed : ∀ entry ∈ fs.nodes, fs.isDirectoryAt entry.1.dropLast = true) :
    fs.IsTree := by
  intro place name found
  obtain ⟨node, found⟩ := Option.isSome_iff_exists.mp found
  rw [node?, if_neg (by simp)] at found
  obtain ⟨before, behind, nodes, -⟩ := List.lookup_eq_some_iff.mp found
  have directory := listed (place ++ [name], node) (by simp [nodes])
  rwa [List.dropLast_concat] at directory

theorem IsTree.dropLast (tree : fs.IsTree) {place : Place}
    (directory : fs.isDirectoryAt place = true) : fs.isDirectoryAt place.dropLast = true := by
  rcases List.eq_nil_or_concat place with rfl | ⟨front, name, rfl⟩
  · exact isDirectoryAt_root
  · rw [List.concat_eq_append] at directory ⊢
    rw [List.dropLast_concat]
    exact tree front name (by rw [isDirectoryAt_iff.mp directory]; rfl)

/-! ## Paths -/

/-- A step along a path starts in a directory. It stays there, goes up, or goes down to a name. -/
theorem step_cases {place next : Place} {piece : List Char}
    (stepped : fs.step place piece = some next) :
    fs.isDirectoryAt place = true ∧
      (next = place ∨ next = place.dropLast ∨
        (piece ≠ [] ∧ piece ≠ ['.'] ∧ piece ≠ ['.', '.']) ∧
          next = place ++ [String.ofList piece]) := by
  unfold step at stepped
  dsimp only at stepped
  split at stepped
  · cases stepped
  next possible =>
  refine ⟨by simp_all, ?_⟩
  split at stepped
  · exact .inl (Option.some.inj stepped).symm
  next down =>
  split at stepped
  · exact .inr (.inl (Option.some.inj stepped).symm)
  · next notUp =>
    exact .inr (.inr ⟨⟨fun same => down (.inl same), fun same => down (.inr same), notUp⟩,
      (Option.some.inj stepped).symm⟩)

/-- What a path leads to is a directory, or it has the name at the end of the path and stands in a
directory. -/
theorem IsTree.directory_or_name (tree : fs.IsTree) {path : List Char} {place : Place}
    (located : fs.locate? path = some place) :
    fs.isDirectoryAt place = true ∨ ∃ parent name, fs.isDirectoryAt parent = true ∧
      Path.LeadsTo path name ∧ place = parent ++ [String.ofList name] := by
  obtain ⟨front, last, cut, ends, no_slash⟩ := Path.exists_last path
  unfold locate? at located
  split at located
  · cases located
  rw [cut, List.foldlM_append] at located
  obtain ⟨parent, -, located⟩ := Option.bind_eq_some_iff.mp located
  obtain ⟨_, stepped, ⟨⟩⟩ := Option.bind_eq_some_iff.mp located
  obtain ⟨directory, rfl | rfl | ⟨⟨ne_nil, ne_here, ne_up⟩, rfl⟩⟩ := step_cases stepped
  · exact .inl directory
  · exact .inl (tree.dropLast directory)
  · exact .inr ⟨parent, last, directory,
      ⟨⟨ne_nil, ne_here, ne_up, no_slash⟩, ends⟩, rfl⟩

end

/-! ## What changes leave as it is -/

/-- All directories are still there, and so are all files with other names. -/
structure KeepsBut (names : List String) (fs after : FileSystem) : Prop where
  working : after.workingDirectory = fs.workingDirectory
  directories : ∀ place, fs.isDirectoryAt place = true → after.isDirectoryAt place = true
  files : ∀ place content, fs.node? place = some (.file content) →
    (∀ name ∈ names, place.getLast? ≠ some name) → after.node? place = some (.file content)
  tree : fs.IsTree → after.IsTree

namespace KeepsBut

variable {names others : List String} {fs between after : FileSystem}

theorem refl (fs : FileSystem) : KeepsBut names fs fs :=
  ⟨rfl, fun _ directory => directory, fun _ _ file _ => file, fun tree => tree⟩

theorem trans (first : KeepsBut names fs between) (second : KeepsBut others between after) :
    KeepsBut (names ++ others) fs after where
  working := second.working.trans first.working
  directories place directory := second.directories place (first.directories place directory)
  files place content file other :=
    second.files place content
      (first.files place content file fun name member => other name (List.mem_append_left _ member))
      fun name member => other name (List.mem_append_right _ member)
  tree isTree := second.tree (first.tree isTree)

theorem step_eq (keeps : KeepsBut names fs after) {place next : Place} {piece : List Char}
    (stepped : fs.step place piece = some next) : after.step place piece = some next := by
  obtain ⟨directory, -⟩ := step_cases stepped
  have kept := keeps.directories place directory
  unfold step at stepped ⊢
  rw [directory] at stepped
  rw [kept]
  exact stepped

/-- A path leads where it has led. -/
theorem locate?_eq (keeps : KeepsBut names fs after) {path : List Char} {place : Place}
    (located : fs.locate? path = some place) : after.locate? path = some place := by
  unfold locate? at located ⊢
  split at located
  · cases located
  next usable =>
  rw [if_neg usable, keeps.working]
  generalize (if Path.isAbsolute path = true then ([] : Place) else fs.workingDirectory) = start,
    Text.pieces '/' path = pieces at located ⊢
  -- The walk is at the same place after each step, in a directory that is still there.
  induction pieces generalizing start with
  | nil => exact located
  | cons piece rest ih =>
    rw [List.foldlM_cons] at located ⊢
    obtain ⟨next, stepped, later⟩ := Option.bind_eq_some_iff.mp located
    rw [keeps.step_eq stepped]
    exact ih next later

/-- A file is still found by its path if its name is none of those that are written. -/
theorem lookup_eq (keeps : KeepsBut names fs after) (tree : fs.IsTree) {path : List Char}
    {content : FileContent} (found : fs.lookup path = some (.file content))
    (other : ∀ name, Path.fileName? path = some name → String.ofList name ∉ names) :
    after.lookup path = some (.file content) := by
  obtain ⟨place, located, file⟩ := Option.bind_eq_some_iff.mp found
  rw [lookup, keeps.locate?_eq located, Option.bind_some]
  refine keeps.files place content file fun name member last => ?_
  rcases tree.directory_or_name located with directory | ⟨parent, fileName, -, leads, rfl⟩
  · rw [isDirectoryAt_iff, file] at directory
    cases directory
  · rw [List.getLast?_concat, Option.some.injEq] at last
    exact other fileName (Path.fileName?_eq leads) (last ▸ member)

end KeepsBut

/-! ## Changes -/

theorem lookup_filter_ne {α β : Type} [BEq α] [LawfulBEq α] [DecidableEq α]
    (entries : List (α × β)) {key other : α} :
    (entries.filter (·.1 ≠ key)).lookup other =
      if other = key then none else entries.lookup other := by
  induction entries with
  | nil => simp
  | cons entry entries ih =>
    by_cases removed : entry.1 = key
    · rw [List.filter_cons_of_neg (by simpa), ih, List.lookup_cons, removed]
      by_cases same : other = key
      · rw [if_pos same, if_pos same]
      · rw [if_neg same, if_neg same, beq_false_of_ne same]
    · rw [List.filter_cons_of_pos (by simpa), List.lookup_cons, List.lookup_cons, ih]
      by_cases found : other = entry.1
      · rw [found, beq_self_eq_true]
        exact (if_neg removed).symm
      · rw [beq_false_of_ne found]

section
variable {fs after : FileSystem} {place parent : Place} {node : FileNode}

theorem node?_put (below : place ≠ []) (other : Place) :
    (fs.put place node).node? other = if other = place then some node else fs.node? other := by
  unfold node? put
  by_cases root : other = []
  · have apart : other ≠ place := fun same => below (same ▸ root)
    simp [root, Ne.symm below]
  · have notRoot : ¬ other.isEmpty = true := by simpa using root
    rw [if_neg notRoot, if_neg notRoot, List.lookup_append, lookup_filter_ne, List.lookup_cons]
    by_cases same : other = place
    · simp [same]
    · simp [same, beq_false_of_ne same]

/-- Something is put into a directory, where no directory stands. A file that stands there is lost,
so its name has to be one of those that may be written. -/
theorem keepsBut_put {name : String} {names : List String} (below : place = parent ++ [name])
    (above : fs.isDirectoryAt parent = true) (free : fs.isDirectoryAt place = false)
    (lost : (fs.node? place).isSome → name ∈ names) :
    KeepsBut names fs (fs.put place node) := by
  have put := @node?_put fs place node (by simp [below])
  have directories : ∀ other, fs.isDirectoryAt other = true →
      (fs.put place node).isDirectoryAt other = true := by
    intro other directory
    have apart : other ≠ place := by
      rintro rfl
      rw [free] at directory
      cases directory
    rw [isDirectoryAt_iff] at directory ⊢
    rw [put, if_neg apart, directory]
  refine ⟨rfl, directories, ?_, ?_⟩
  · intro other content file named
    have apart : other ≠ place := by
      rintro rfl
      exact named name (lost (by rw [file]; rfl)) (by rw [below, List.getLast?_concat])
    rw [put, if_neg apart, file]
  · intro tree other entry found
    rw [put] at found
    refine directories other ?_
    split at found
    · next same =>
      obtain ⟨rfl, -⟩ := List.append_inj' (same.trans below) rfl
      exact above
    · exact tree other entry found

theorem write_spec {path : List Char} {content : FileContent} (tree : fs.IsTree)
    (written : fs.write path content = some after) :
    ∃ name, Path.LeadsTo path name ∧ KeepsBut [String.ofList name] fs after ∧
      after.lookup path = some (.file content) := by
  obtain ⟨place, located, written⟩ := Option.bind_eq_some_iff.mp written
  split at written
  · cases written
  next free =>
  obtain rfl := Option.some.inj written
  obtain ⟨parent, name, above, leads, below⟩ := (tree.directory_or_name located).resolve_left free
  have keeps : KeepsBut [String.ofList name] fs (fs.put place (.file content)) :=
    keepsBut_put below above (by simpa using free) (by simp)
  refine ⟨name, leads, keeps, ?_⟩
  rw [lookup, keeps.locate?_eq located, Option.bind_some, node?_put (by simp [below]), if_pos rfl]

theorem createDirectory_keeps {path : List Char} (tree : fs.IsTree)
    (created : fs.createDirectory path = some after) : KeepsBut [] fs after := by
  obtain ⟨place, located, created⟩ := Option.bind_eq_some_iff.mp created
  split at created
  · next vacant =>
    obtain rfl := Option.some.inj created
    have free : fs.isDirectoryAt place = false := by rw [isDirectoryAt, vacant]
    obtain ⟨parent, name, above, -, below⟩ :=
      (tree.directory_or_name located).resolve_left (by simp [free])
    exact keepsBut_put below above free (by simp [vacant])
  · obtain rfl := Option.some.inj created
    exact .refl fs
  · cases created

theorem createDirectories_keeps {path : List Char} (tree : fs.IsTree)
    (created : fs.createDirectories path = some after) : KeepsBut [] fs after := by
  unfold createDirectories at created
  generalize List.filter _ _ = paths at created
  induction paths generalizing fs with
  | nil =>
    obtain rfl := Option.some.inj created
    exact .refl fs
  | cons first rest ih =>
    obtain ⟨between, made, later⟩ := Option.bind_eq_some_iff.mp created
    have keeps := createDirectory_keeps tree made
    exact keeps.trans (ih (keeps.tree tree) later)

end

end IsoScene.FileSystem
