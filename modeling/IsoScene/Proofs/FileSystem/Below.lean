import IsoScene.Proofs.FileSystem.Tree

/-! # What stands below a directory

A path that is joined to another one leads on from where that one leads (`walk_join`). So what a
path below a directory leads to depends on the nodes at and below this directory only, wherever the
directory is: file systems that have the same nodes there (`SameBelow`) have the same nodes below
every path that goes down from it (`SameBelow.join`).

* `walk` — the place that a path leads to, with no regard to the length of the path.
* `nodeBelow` — the nodes at and below a directory, by the names that lead down to them.
-/

namespace IsoScene.FileSystem

variable {fs : FileSystem}

/-! ## Walks -/

/-- The place that a path leads to if it is not too long. The empty path leads nowhere by itself,
but what is joined to it starts in the working directory, and so does its walk. -/
def walk (fs : FileSystem) (path : List Char) : Option Place :=
  (Text.pieces '/' path).foldlM fs.step (if Path.isAbsolute path then [] else fs.workingDirectory)

theorem locate?_eq_walk {path : List Char} (usable : isUsable path = true) :
    fs.locate? path = fs.walk path := by
  simp [locate?, walk, usable]

theorem locate?_of_not_usable {path : List Char} (unusable : isUsable path = false) :
    fs.locate? path = none := by
  simp [locate?, unusable]

theorem step_of_not_directory {place : Place} (noDirectory : fs.isDirectoryAt place = false)
    (piece : List Char) : fs.step place piece = none := by
  simp [step, noDirectory]

/-- A step that stays where it is changes nothing about the next one. -/
theorem step_nil_bind (place : Place) (piece : List Char) :
    ((fs.step place []).bind fun next => fs.step next piece) = fs.step place piece := by
  cases directory : fs.isDirectoryAt place with
  | false => simp [step_of_not_directory directory]
  | true => simp [step, directory]

theorem walk_concat (front part : List Char) (noSlash : '/' ∉ part) :
    fs.walk (front ++ '/' :: part) =
      ((Text.pieces '/' front).foldlM fs.step
        (if Path.isAbsolute (front ++ ['/']) then [] else fs.workingDirectory)).bind
          fun place => fs.step place part := by
  have sameStart : Path.isAbsolute (front ++ '/' :: part) = Path.isAbsolute (front ++ ['/']) := by
    cases front <;> rfl
  rw [walk, Text.pieces_append, Text.pieces_of_not_mem noSlash, List.foldlM_append, sameStart]
  simp only [List.foldlM_cons, List.foldlM_nil, bind_pure]
  rfl

/-- A path without slashes leads on from the path that it is joined to. -/
theorem walk_join {part : List Char} (noSlash : '/' ∉ part) (base : List Char) :
    fs.walk (Path.join base part) = (fs.walk base).bind fun place => fs.step place part := by
  have relative := Path.isAbsolute_of_no_slash noSlash
  unfold Path.join
  by_cases empty : base = []
  · have start : fs.walk [] = fs.step fs.workingDirectory [] := by
      simp [walk, Text.pieces, Path.isAbsolute]
    rw [if_pos (by simp [empty]), empty, start, step_nil_bind, walk, relative,
      Text.pieces_of_not_mem noSlash]
    simp
  rw [if_neg (by simp [relative, empty])]
  split
  · next slash =>
    -- The slash at the end of the base is a step that stays where it is.
    obtain ⟨front, rfl⟩ := List.getLast?_eq_some_iff.mp slash
    rw [List.append_assoc, List.singleton_append, walk_concat front part noSlash,
      walk_concat front [] (by simp), Option.bind_assoc]
    simp only [step_nil_bind]
  · have start : Path.isAbsolute (base ++ ['/']) = Path.isAbsolute base := by
      cases base with
      | nil => exact absurd rfl empty
      | cons c rest => rfl
    rw [walk_concat base part noSlash, start, walk]

/-! ## Entries -/

theorem node?_concat (place : Place) (name : String) :
    fs.node? (place ++ [name]) = fs.nodes.lookup (place ++ [name]) := by
  simp [node?]

/-- The names in a directory are those at which something stands in it. -/
theorem mem_names_iff {path : List Char} {name : String} :
    name ∈ fs.names path ↔
      ∃ place, fs.locate? path = some place ∧ (fs.node? (place ++ [name])).isSome = true := by
  unfold names
  cases fs.locate? path with
  | none => simp
  | some place =>
    simp only [List.mem_filterMap, Option.some.injEq, exists_eq_left', node?_concat,
      List.lookup_isSome_iff, beq_iff_eq, Option.ite_none_right_eq_some]
    refine exists_congr fun entry => and_congr_right fun _ => ?_
    constructor
    · rintro ⟨front, last⟩
      obtain ⟨others, split⟩ := List.getLast?_eq_some_iff.mp last
      rw [split, List.dropLast_concat] at front
      rw [split, front]
    · intro split
      rw [← split]
      simp

/-! ## Going down -/

def nodeBelow (fs : FileSystem) (directory : List Char) (below : Place) : Option FileNode :=
  (fs.walk directory).bind fun place => fs.node? (place ++ below)

theorem lookup_eq_nodeBelow {path : List Char} (usable : isUsable path = true) :
    fs.lookup path = fs.nodeBelow path [] := by
  simp [lookup, nodeBelow, locate?_eq_walk usable]

theorem mem_names_iff_nodeBelow {path : List Char} (usable : isUsable path = true) {name : String} :
    name ∈ fs.names path ↔ (fs.nodeBelow path [name]).isSome = true := by
  rw [mem_names_iff, locate?_eq_walk usable, nodeBelow]
  cases fs.walk path <;> simp

/-- The names that a part of a path adds: none if it stays where it is. -/
def namesDown (part : List Char) : Place :=
  if part = [] ∨ part = ['.'] then [] else [String.ofList part]

theorem step_down {part : List Char} (notUp : part ≠ ['.', '.']) (place : Place) :
    fs.step place part =
      if fs.isDirectoryAt place ∧ (String.ofList part).utf8ByteSize ≤ maxNameBytes then
        some (place ++ namesDown part)
      else none := by
  unfold step namesDown
  by_cases directory : fs.isDirectoryAt place = true
  · by_cases short : (String.ofList part).utf8ByteSize ≤ maxNameBytes
    · have notLong : ¬ maxNameBytes < (String.ofList part).utf8ByteSize := by omega
      by_cases here : part = [] ∨ part = ['.'] <;> simp [directory, short, notLong, here, notUp]
    · have long : maxNameBytes < (String.ofList part).utf8ByteSize := by omega
      simp [directory, short, long]
  · simp [directory]

/-- What stands below a joined path stands below the path that it is joined to. -/
theorem nodeBelow_join {part : List Char} (noSlash : '/' ∉ part) (notUp : part ≠ ['.', '.'])
    (base : List Char) (below : Place) :
    fs.nodeBelow (Path.join base part) below =
      if fs.nodeBelow base [] = some .directory ∧
          (String.ofList part).utf8ByteSize ≤ maxNameBytes then
        fs.nodeBelow base (namesDown part ++ below)
      else none := by
  rw [nodeBelow, walk_join noSlash, nodeBelow, nodeBelow]
  cases fs.walk base with
  | none => simp
  | some place =>
    simp only [Option.bind_some, step_down notUp, List.append_nil, isDirectoryAt_iff]
    split
    · simp
    · rfl

/-! ## Files in a directory -/

theorem isDirectory_iff {path : List Char} :
    fs.isDirectory path = true ↔
      isUsable path = true ∧ fs.nodeBelow path [] = some .directory := by
  cases usable : isUsable path with
  | true =>
    rw [isDirectory, lookup_eq_nodeBelow usable]
    split <;> simp_all
  | false => simp [isDirectory, lookup, locate?_of_not_usable usable]

/-- A path below a usable path is usable unless it is too long. -/
theorem isUsable_join {base part : List Char} (usable : isUsable base = true)
    (noSlash : '/' ∉ part) (noEnd : '\x00' ∉ part) :
    isUsable (Path.join base part) = true ↔
      (String.ofList (Path.join base part)).utf8ByteSize ≤ maxPathBytes := by
  simp only [isUsable, Bool.and_eq_true, Bool.not_eq_true', List.isEmpty_eq_false_iff,
    List.contains_eq_mem, decide_eq_false_iff_not, decide_eq_true_eq] at usable ⊢
  obtain ⟨⟨nonempty, noEndBefore⟩, -⟩ := usable
  have joined : Path.join base part ≠ [] ∧ '\x00' ∉ Path.join base part := by
    unfold Path.join
    rw [if_neg (by simp [Path.isAbsolute_of_no_slash noSlash, nonempty])]
    split <;> simp [nonempty, noEndBefore, noEnd]
  simp [joined]

/-- A path to a name in a directory leads to a file if one stands there, unless the path is too
long. -/
theorem isFile_join_iff {base part : List Char} (directory : fs.isDirectory base = true)
    (name : Path.IsName part) (noEnd : '\x00' ∉ part)
    (short : (String.ofList part).utf8ByteSize ≤ maxNameBytes) :
    fs.isFile (Path.join base part) = true ↔
      (String.ofList (Path.join base part)).utf8ByteSize ≤ maxPathBytes ∧
        ∃ content, fs.nodeBelow base [String.ofList part] = some (.file content) := by
  obtain ⟨usable, stands⟩ := isDirectory_iff.mp directory
  have down : namesDown part = [String.ofList part] := by
    simp [namesDown, name.ne_nil, name.ne_here]
  rw [← isUsable_join usable name.no_slash noEnd]
  cases reachable : isUsable (Path.join base part) with
  | false => simp [isFile, lookup, locate?_of_not_usable reachable]
  | true =>
    rw [isFile, lookup_eq_nodeBelow reachable, nodeBelow_join name.no_slash name.ne_up,
      if_pos ⟨stands, short⟩, down, List.append_nil]
    split <;> simp_all

/-! ## File systems with a common part -/

/-- Two file systems have the same at a directory and below it. -/
def SameBelow (first second : FileSystem) (directory : List Char) : Prop :=
  ∀ below, first.nodeBelow directory below = second.nodeBelow directory below

namespace SameBelow

variable {first second : FileSystem} {directory : List Char}

theorem join (same : SameBelow first second directory) {part : List Char} (noSlash : '/' ∉ part)
    (notUp : part ≠ ['.', '.']) : SameBelow first second (Path.join directory part) := by
  intro below
  rw [nodeBelow_join noSlash notUp, nodeBelow_join noSlash notUp, same, same]

theorem lookup_eq (same : SameBelow first second directory) :
    first.lookup directory = second.lookup directory := by
  cases usable : isUsable directory with
  | true => rw [lookup_eq_nodeBelow usable, lookup_eq_nodeBelow usable, same]
  | false => simp [lookup, locate?_of_not_usable usable]

theorem mem_names_iff (same : SameBelow first second directory) {name : String} :
    name ∈ first.names directory ↔ name ∈ second.names directory := by
  cases usable : isUsable directory with
  | true => rw [mem_names_iff_nodeBelow usable, mem_names_iff_nodeBelow usable, same]
  | false => simp [names, locate?_of_not_usable usable]

end SameBelow

end IsoScene.FileSystem
