import IsoScene.Raster.Scale
import Mathlib.Data.Nat.Basic

/-! # The cells of a raster

A raster is known by its sides and by what stands in each cell, `Raster.get?`. For each way of
making a raster there is a lemma that gives its cells; nothing after this module needs to know how
the cells are stored.

* `isSome_get?_iff`, `ext_get?` — the cells that there are, and that there is nothing else.
* `mem_toList_iff` — the contents of the cells, as they are listed.
* `get?_modify`, `get?_map`, `get?_filled`, `get?_enlarge` — the cells of what is made.
* `at?` — the cell at any place of the plane.
-/

namespace IsoScene.Raster

variable {α β : Type}

/-- Cells have one place only. -/
theorem cell_inj {w x y i j : Nat} (hx : x < w) (hi : i < w) :
    y * w + x = j * w + i ↔ x = i ∧ y = j := by
  constructor
  · intro same
    have hw : 0 < w := by omega
    have column := congrArg (· % w) same
    have row := congrArg (· / w) same
    simp only [Nat.mul_add_mod_self_right, Nat.mod_eq_of_lt hx, Nat.mod_eq_of_lt hi] at column
    simp only [Nat.mul_comm _ w, Nat.mul_add_div hw, Nat.div_eq_of_lt hx, Nat.div_eq_of_lt hi,
      Nat.add_zero] at row
    exact ⟨column, row⟩
  · rintro ⟨rfl, rfl⟩
    rfl

theorem isSome_get?_iff {r : Raster α} {x y : Nat} :
    (r.get? x y).isSome ↔ x < r.width ∧ y < r.height := by
  constructor
  · intro found
    by_contra outside
    rw [get?_eq_none (by omega)] at found
    exact absurd found (by simp)
  · rintro ⟨hx, hy⟩
    have inside := cell_lt hx hy
    rw [← r.size_cells] at inside
    simp [get?, hx, inside]

theorem exists_get? {r : Raster α} {x y : Nat} (hx : x < r.width) (hy : y < r.height) :
    ∃ content, r.get? x y = some content :=
  Option.isSome_iff_exists.mp (isSome_get?_iff.mpr ⟨hx, hy⟩)

/-- A raster is nothing but its sides and its cells. -/
theorem ext_get? {r s : Raster α} (width : r.width = s.width) (height : r.height = s.height)
    (cells : ∀ x y, r.get? x y = s.get? x y) : r = s := by
  have same : r.cells = s.cells := by
    refine Array.ext_getElem? fun i => ?_
    by_cases inside : i < r.width * r.height
    · -- The content `i` stands in the cell whose row-major place is `i`.
      have wide : 0 < r.width := Nat.pos_of_ne_zero fun none => by simp [none] at inside
      have column : i % r.width < r.width := Nat.mod_lt _ wide
      have place : i / r.width * r.width + i % r.width = i := Nat.div_add_mod' i r.width
      have cell := cells (i % r.width) (i / r.width)
      rwa [get?, get?, if_pos column, ← width, if_pos column, place] at cell
    · rw [Array.getElem?_eq_none, Array.getElem?_eq_none]
      · rw [s.size_cells, ← width, ← height]
        omega
      · rw [r.size_cells]
        omega
  cases r
  cases s
  simp_all

/-- The cells of a raster stand in its list row by row. -/
theorem get?_of_getElem?_toList {r : Raster α} {place : Nat} {content : α}
    (found : r.toList[place]? = some content) :
    r.get? (place % r.width) (place / r.width) = some content := by
  have inside : place < r.width * r.height := by
    rw [← r.size_cells]
    exact (List.getElem?_eq_some_iff.mp found).1
  have wide : 0 < r.width := Nat.pos_of_mul_pos_right (Nat.zero_lt_of_lt inside)
  rw [get?, if_pos (Nat.mod_lt _ wide), Nat.div_add_mod', ← Array.getElem?_toList]
  exact found

theorem mem_toList_iff {r : Raster α} {content : α} :
    content ∈ r.toList ↔ ∃ x y, r.get? x y = some content := by
  constructor
  · intro member
    obtain ⟨place, found⟩ := List.mem_iff_getElem?.mp member
    exact ⟨_, _, get?_of_getElem?_toList found⟩
  · rintro ⟨x, y, found⟩
    rw [get?] at found
    split at found
    · exact (Array.mem_of_getElem? found).val
    · cases found

theorem get?_filled (w h : Nat) (content : α) {x y : Nat} (hx : x < w) (hy : y < h) :
    (filled w h content).get? x y = some content := by
  have inside := cell_lt hx hy
  simp [get?, filled, hx, inside]

theorem get?_map (f : α → β) (r : Raster α) (x y : Nat) :
    (r.map f).get? x y = (r.get? x y).map f := by
  by_cases hx : x < r.width
  · simp only [get?, width_map, hx, if_true]
    exact Array.getElem?_map
  · simp [get?, hx]

theorem get?_modify (r : Raster α) (x y : Nat) (f : α → α) (i j : Nat) :
    (r.modify x y f).get? i j = (r.get? i j).map fun content =>
      if x = i ∧ y = j then f content else content := by
  unfold modify
  split
  · next hx =>
    unfold get?
    split
    · next hi =>
      rw [Array.getElem?_modify]
      simp only [cell_inj hx hi]
      split <;> simp
    · rfl
  · next hx =>
    -- A column outside the raster is none of its cells.
    by_cases hi : i < r.width
    · have other : ¬ (x = i ∧ y = j) := by omega
      simp [other]
    · simp [get?, hi]

/-! ## The whole plane -/

/-- The content at any place of the plane, if it lies on the raster. -/
def at? (r : Raster α) (x y : Int) : Option α :=
  if 0 ≤ x ∧ 0 ≤ y then r.get? x.toNat y.toNat else none

theorem sample_eq_at? [Inhabited α] (r : Raster α) (x y : Int) :
    r.sample x y = (r.at? x y).getD default := by
  unfold sample at?
  split <;> rfl

theorem at?_ofNat (r : Raster α) (x y : Nat) : r.at? x y = r.get? x y := by
  simp [at?]

/-- The place lies on the raster if it lies in its range on either axis. -/
theorem at?_eq (r : Raster α) (x y : Int) :
    r.at? x y =
      if 0 ≤ y ∧ y < r.height then
        if 0 ≤ x ∧ x < r.width then r.get? x.toNat y.toNat else none
      else none := by
  unfold at?
  by_cases inside : (0 ≤ x ∧ x < r.width) ∧ (0 ≤ y ∧ y < r.height)
  · rw [if_pos inside.1, if_pos inside.2, if_pos ⟨inside.1.1, inside.2.1⟩]
  · trans none
    · split
      · exact get?_eq_none (by omega)
      · rfl
    · split
      · rw [if_neg (by omega)]
      · rfl

/-! ## Enlarging -/

theorem get?_enlarge (image : Image) (factor x y : Nat) :
    (image.enlarge factor).get? x y = image.get? (x / max factor 1) (y / max factor 1) := by
  unfold enlarge
  split
  · next small =>
    have one : max factor 1 = 1 := by omega
    rw [one, Nat.div_one, Nat.div_one]
  · next large =>
    have same : max factor 1 = factor := by omega
    have positive : 0 < factor := by omega
    rw [same]
    by_cases inside : x < image.width * factor ∧ y < image.height * factor
    · obtain ⟨content, found⟩ :=
        exists_get? (Nat.div_lt_of_lt_mul (by rw [Nat.mul_comm]; exact inside.1))
          (Nat.div_lt_of_lt_mul (by rw [Nat.mul_comm]; exact inside.2))
      rw [get?_ofFn _ inside.1 inside.2, sample_eq_at?, at?_ofNat, found]
      rfl
    · rw [get?_eq_none, get?_eq_none]
      · simp only [Nat.le_div_iff_mul_le positive]
        omega
      · simp only [width_ofFn, height_ofFn]
        omega

@[simp] theorem width_enlarge (image : Image) (factor : Nat) :
    (image.enlarge factor).width = image.width * max factor 1 := by
  unfold enlarge
  split
  · next small => rw [show max factor 1 = 1 by omega, Nat.mul_one]
  · next large => rw [show max factor 1 = factor by omega, width_ofFn]

@[simp] theorem height_enlarge (image : Image) (factor : Nat) :
    (image.enlarge factor).height = image.height * max factor 1 := by
  unfold enlarge
  split
  · next small => rw [show max factor 1 = 1 by omega, Nat.mul_one]
  · next large => rw [show max factor 1 = factor by omega, height_ofFn]

end IsoScene.Raster
