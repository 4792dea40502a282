import IsoScene.Proofs.FileSystem.Below

/-! # The directories above a path

Going up takes the last part off a path (`stepsUp_parent?`), as far as parts count: empty ones and
points do not. An absolute path therefore has as many directories above it as it has parts, and each
of them has the first of these parts (`isAbove_up?`). Every step makes the path shorter, so a bound
by its length cuts nothing off (`getElem?_ancestors`).
-/

namespace IsoScene

namespace Path

/-- The parts of a path that count, from the top down. -/
def parts (path : List Char) : List (List Char) :=
  (Text.pieces '/' path).filter fun part => part ≠ [] ∧ part ≠ ['.']

/-- The directory so many levels up. -/
def up? : Nat → List Char → Option (List Char)
  | 0, path => some path
  | levels + 1, path => (parent? path).bind (up? levels)

/-! ## Parts -/

theorem parts_append (front rest : List Char) :
    parts (front ++ '/' :: rest) = parts front ++ parts rest := by
  rw [parts, Text.pieces_append, List.filter_append, parts, parts]

@[simp] theorem parts_nil : parts [] = [] := rfl

theorem parts_here : parts ['.'] = [] := rfl

theorem parts_of_counts {part : List Char} (no_slash : '/' ∉ part) (ne_nil : part ≠ [])
    (ne_here : part ≠ ['.']) : parts part = [part] := by
  rw [parts, Text.pieces_of_not_mem no_slash]
  simp [ne_nil, ne_here]

/-! ## What is left of a reversed path -/

theorem parts_dropIdle (reversed : List Char) :
    parts (dropIdle reversed).reverse = parts reversed.reverse := by
  fun_induction dropIdle reversed with
  | case1 => rfl
  | case2 => rfl
  | case3 => rfl
  | case4 rest notRoot ih => rw [ih, List.reverse_cons, parts_append, parts_nil, List.append_nil]
  | case5 rest ih =>
    rw [ih, List.reverse_cons, List.reverse_cons, List.reverse_cons, List.append_assoc,
      List.singleton_append, parts_append, parts_append, parts_here, parts_nil]
  | case6 => rfl

theorem length_dropIdle_le (reversed : List Char) :
    (dropIdle reversed).length ≤ reversed.length := by
  fun_induction dropIdle reversed with
  | case1 => exact Nat.le_refl _
  | case2 => exact Nat.le_refl _
  | case3 => exact Nat.le_refl _
  | case4 rest notRoot ih => exact ih.trans (Nat.le_succ _)
  | case5 rest ih => exact ih.trans (Nat.le_succ _)
  | case6 => exact Nat.le_refl _

/-- Where a path begins stays. -/
theorem getLast?_dropIdle (reversed : List Char) :
    (dropIdle reversed).getLast? = reversed.getLast? := by
  fun_induction dropIdle reversed with
  | case1 => rfl
  | case2 => rfl
  | case3 => rfl
  | case4 rest notRoot ih =>
    obtain ⟨c, rest, rfl⟩ := List.exists_cons_of_ne_nil notRoot
    rw [ih, List.getLast?_cons_cons]
  | case5 rest ih => rw [ih, List.getLast?_cons_cons]
  | case6 => rfl

theorem isAbsolute_reverse (reversed : List Char) :
    isAbsolute reversed.reverse = (reversed.getLast? == some '/') := by
  rw [isAbsolute, List.head?_reverse]

theorem isAbsolute_dropIdle (reversed : List Char) :
    isAbsolute (dropIdle reversed).reverse = isAbsolute reversed.reverse := by
  rw [isAbsolute_reverse, isAbsolute_reverse, getLast?_dropIdle]

/-- A reversed path with nothing idle at its front. -/
inductive IsTrimmed : List Char → Prop
  | nil : IsTrimmed []
  | root : IsTrimmed ['/']
  | here : IsTrimmed ['.']
  | part {part rest : List Char} (ne_nil : part ≠ []) (ne_here : part ≠ ['.'])
      (no_slash : '/' ∉ part) (ends : AtSlash rest) : IsTrimmed (part ++ rest)

/-- Every reversed path begins with a part, perhaps an empty one. -/
theorem exists_part (reversed : List Char) :
    ∃ part rest, reversed = part ++ rest ∧ '/' ∉ part ∧ AtSlash rest := by
  refine ⟨reversed.takeWhile (· ≠ '/'), reversed.dropWhile (· ≠ '/'),
    List.takeWhile_append_dropWhile.symm, fun member => ?_, ?_⟩
  · simpa using List.mem_takeWhile_imp member
  · cases kept : reversed.dropWhile (· ≠ '/') with
    | nil => exact .inl rfl
    | cons c others =>
      have slash := List.head?_dropWhile_not (· ≠ '/') reversed
      rw [kept] at slash
      exact .inr ⟨others, by simpa using slash⟩

theorem isTrimmed_dropIdle (reversed : List Char) : IsTrimmed (dropIdle reversed) := by
  fun_induction dropIdle reversed with
  | case1 => exact .nil
  | case2 => exact .root
  | case3 => exact .here
  | case4 rest notRoot ih => exact ih
  | case5 rest ih => exact ih
  | case6 reversed notEmpty _ notHere noSlash noPoint =>
    obtain ⟨part, rest, rfl, inside, ends⟩ := exists_part reversed
    refine .part ?_ ?_ inside ends
    · rintro rfl
      rcases ends with rfl | ⟨others, rfl⟩
      · exact notEmpty rfl
      · exact noSlash others rfl
    · rintro rfl
      rcases ends with rfl | ⟨others, rfl⟩
      · exact notHere rfl
      · exact noPoint others rfl

section
variable {part rest : List Char} (no_slash : '/' ∉ part) (ends : AtSlash rest)
include no_slash ends

theorem parts_reverse_append (ne_nil : part ≠ []) (ne_here : part ≠ ['.']) :
    parts (part ++ rest).reverse = parts rest.reverse ++ [part.reverse] := by
  have counts : parts part.reverse = [part.reverse] :=
    parts_of_counts (by simpa) (by simpa) fun same => ne_here (by simpa using same)
  rw [List.reverse_append]
  rcases ends with rfl | ⟨others, rfl⟩
  · exact counts
  · rw [List.reverse_cons, List.append_assoc, List.singleton_append, parts_append, parts_append,
      counts, parts_nil, List.append_nil]

theorem isAbsolute_reverse_append :
    isAbsolute (part ++ rest).reverse = isAbsolute rest.reverse := by
  rw [isAbsolute_reverse, isAbsolute_reverse]
  rcases ends with rfl | ⟨others, rfl⟩
  · rw [List.append_nil, List.getLast?_nil]
    exact beq_eq_false_iff_ne.mpr fun slash => no_slash (List.mem_of_getLast? slash)
  · rw [List.getLast?_append, List.getLast?_cons, Option.some_or]

end

/-! ## One step up -/

/-- What one step up does to a path. From the root and from the empty path no step leads upwards. -/
inductive StepsUp (path : List Char) : Option (List Char) → Prop
  | top (none_left : parts path = []) : StepsUp path none
  | here (relative : isAbsolute path = false) (shorter : 0 < path.length) : StepsUp path (some [])
  | up {parent : List Char} (last : List Char) (splits : parts path = parts parent ++ [last])
      (sameStart : isAbsolute parent = isAbsolute path) (shorter : parent.length < path.length) :
      StepsUp path (some parent)

theorem stepsUp_parent? (path : List Char) : StepsUp path (parent? path) := by
  have kept : parts path = parts (dropIdle path.reverse).reverse := by
    rw [parts_dropIdle, List.reverse_reverse]
  have start : isAbsolute path = isAbsolute (dropIdle path.reverse).reverse := by
    rw [isAbsolute_dropIdle, List.reverse_reverse]
  have short : (dropIdle path.reverse).length ≤ path.length := by
    simpa using length_dropIdle_le path.reverse
  have trimmed := isTrimmed_dropIdle path.reverse
  unfold parent?
  dsimp only
  -- From here on the path matters only as far as nothing idle is left at its end.
  generalize dropIdle path.reverse = reversed at kept start short trimmed ⊢
  cases trimmed with
  | nil => exact .top kept
  | root => exact .top kept
  | here => exact .here start short
  | @part part rest ne_nil ne_here no_slash ends =>
    have below : ¬(part ++ rest = [] ∨ part ++ rest = ['/']) := by
      rintro (empty | root)
      · exact ne_nil (List.append_eq_nil_iff.mp empty).1
      · obtain ⟨c, others, rfl⟩ := List.exists_cons_of_ne_nil ne_nil
        exact no_slash (by simp [(List.cons.inj root).1])
    have shorter : (dropIdle rest).length < path.length := by
      have positive := List.length_pos_iff.mpr ne_nil
      have dropped := length_dropIdle_le rest
      rw [List.length_append] at short
      omega
    rw [if_neg below, lastPart_append no_slash ends]
    refine .up part.reverse ?_ ?_ (by simpa using shorter)
    · rw [kept, parts_dropIdle, parts_reverse_append no_slash ends ne_nil ne_here]
    · rw [start, isAbsolute_dropIdle, isAbsolute_reverse_append no_slash ends]

theorem length_lt_of_parent? {path parent : List Char} (found : parent? path = some parent) :
    parent.length < path.length := by
  have step := stepsUp_parent? path
  rw [found] at step
  cases step with
  | here relative shorter => exact shorter
  | up last splits sameStart shorter => exact shorter

theorem parts_of_parent?_eq_none {path : List Char} (top : parent? path = none) :
    parts path = [] := by
  have step := stepsUp_parent? path
  rw [top] at step
  cases step with
  | top none_left => exact none_left

/-- An absolute path is the root, or one part below another absolute path. -/
theorem parent?_of_absolute {path : List Char} (absolute : isAbsolute path = true) :
    parts path = [] ∧ parent? path = none ∨
      ∃ parent last, parent? path = some parent ∧ isAbsolute parent = true ∧
        parts path = parts parent ++ [last] := by
  have step := stepsUp_parent? path
  cases found : parent? path with
  | none => exact .inl ⟨parts_of_parent?_eq_none found, rfl⟩
  | some parent =>
    rw [found] at step
    cases step with
    | here relative => exact absurd absolute (by simp [relative])
    | up last splits sameStart =>
      exact .inr ⟨parent, last, rfl, sameStart.trans absolute, splits⟩

/-! ## The way up -/

/-- What stands so many levels above an absolute path: a directory with the first of its parts, and
nothing above the root. -/
inductive IsAbove (path : List Char) (levels : Nat) : Option (List Char) → Prop
  | directory {above : List Char} (within : levels ≤ (parts path).length)
      (absolute : isAbsolute above = true)
      (first : parts above = (parts path).take ((parts path).length - levels)) :
      IsAbove path levels (some above)
  | nowhere (beyond : (parts path).length < levels) : IsAbove path levels none

theorem isAbove_up? {path : List Char} (absolute : isAbsolute path = true) (levels : Nat) :
    IsAbove path levels (up? levels path) := by
  induction levels generalizing path with
  | zero => exact .directory (Nat.zero_le _) absolute (List.take_length).symm
  | succ levels ih =>
    rw [up?]
    rcases parent?_of_absolute absolute with ⟨none_left, top⟩ | ⟨parent, last, found, start, splits⟩
    · rw [top]
      exact .nowhere (by simp [none_left])
    · have length : (parts path).length = (parts parent).length + 1 := by simp [splits]
      have onwards := ih start
      rw [found, Option.bind_some]
      generalize up? levels parent = reached at onwards ⊢
      cases onwards with
      | directory within absolute first =>
        refine .directory (by omega) absolute ?_
        rw [first, length, Nat.add_sub_add_right, splits,
          List.take_append_of_le_length (Nat.sub_le _ _)]
      | nowhere beyond => exact .nowhere (by omega)

theorem getElem?_ancestorsUpTo {bound : Nat} {path : List Char} (enough : path.length ≤ bound)
    (levels : Nat) : (ancestorsUpTo bound path)[levels]? = up? (levels + 1) path := by
  induction bound generalizing path levels with
  | zero =>
    obtain rfl : path = [] := List.length_eq_zero_iff.mp (Nat.le_zero.mp enough)
    rfl
  | succ bound ih =>
    rw [ancestorsUpTo, up?]
    cases found : parent? path with
    | none => rfl
    | some parent =>
      have shorter := length_lt_of_parent? found
      cases levels with
      | zero => rfl
      | succ levels => exact ih (by omega) levels

theorem getElem?_ancestors (path : List Char) (levels : Nat) :
    (ancestors path)[levels]? = up? (levels + 1) path :=
  getElem?_ancestorsUpTo (Nat.le_refl _) levels

end Path

/-! ## Files -/

namespace FileSystem

variable {fs : FileSystem}

/-- A path without any part leads to a directory, if it leads anywhere. -/
theorem isDirectoryAt_of_no_parts {path : List Char} {place : Place}
    (none_left : Path.parts path = []) (located : fs.locate? path = some place) :
    fs.isDirectoryAt place = true := by
  obtain ⟨front, last, cut, -, -⟩ := Path.exists_last path
  have idle : last = [] ∨ last = ['.'] := by
    rw [Path.parts, cut, List.filter_append, List.append_eq_nil_iff] at none_left
    simpa [or_iff_not_imp_left] using none_left.2
  -- The last step stays where it is, so it starts in what the path leads to.
  have notUp : last ≠ ['.', '.'] := by rcases idle with rfl | rfl <;> decide
  unfold locate? at located
  split at located
  · cases located
  rw [cut, List.foldlM_append] at located
  obtain ⟨before, -, located⟩ := Option.bind_eq_some_iff.mp located
  obtain ⟨_, stepped, ⟨⟩⟩ := Option.bind_eq_some_iff.mp located
  rw [step_down notUp] at stepped
  split at stepped
  · next possible =>
    obtain rfl := Option.some.inj stepped
    rw [namesDown, if_pos idle, List.append_nil]
    exact possible.1
  · cases stepped

/-- A file stands in a directory, which the path to it names. -/
theorem exists_parent?_of_readText {path text : List Char} (read : fs.readText path = some text) :
    ∃ parent, Path.parent? path = some parent := by
  refine Option.ne_none_iff_exists'.mp fun top => ?_
  have none_left := Path.parts_of_parent?_eq_none top
  unfold readText lookup at read
  cases located : fs.locate? path with
  | none => simp [located] at read
  | some place =>
    have directory := isDirectoryAt_iff.mp (isDirectoryAt_of_no_parts none_left located)
    simp [located, directory] at read

end FileSystem

end IsoScene
