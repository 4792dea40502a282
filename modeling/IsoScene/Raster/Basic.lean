import IsoScene.Color.Basic

/-! # Rasters

A raster is a rectangle of cells, stored row by row. Images are rasters of colours; their alpha
channels are rasters of bytes.

* `Raster.ofFn` — a raster from the content of each cell.
* `Raster.get?` — the cell at a column and a row, if there is one.
* `Raster.sample` — the same for any two integers, with the default content outside.
* `Raster.modify` — changes one cell.
-/

namespace IsoScene

structure Raster (α : Type) where
  width : Nat
  height : Nat
  cells : Array α
  size_cells : cells.size = width * height := by simp

abbrev Image := Raster Rgba

namespace Raster

variable {α β : Type}

instance [DecidableEq α] : DecidableEq (Raster α) := fun r s =>
  if h : r.width = s.width ∧ r.height = s.height ∧ r.cells = s.cells then
    .isTrue (by cases r; cases s; simp_all)
  else
    .isFalse (by rintro rfl; exact h ⟨rfl, rfl, rfl⟩)

/-- The raster whose cell in column `x` and row `y` holds `f x y`. -/
def ofFn (width height : Nat) (f : Nat → Nat → α) : Raster α where
  width := width
  height := height
  cells := Array.ofFn fun i : Fin (width * height) => f (i.val % width) (i.val / width)

/-- A raster with the same content everywhere. -/
def filled (width height : Nat) (content : α) : Raster α where
  width := width
  height := height
  cells := Array.replicate (width * height) content

def empty : Raster α where
  width := 0
  height := 0
  cells := #[]

def get? (r : Raster α) (x y : Nat) : Option α :=
  if x < r.width then r.cells[y * r.width + x]? else none

/-- The content at any place of the plane, the default outside the raster. -/
def sample [Inhabited α] (r : Raster α) (x y : Int) : α :=
  if 0 ≤ x ∧ 0 ≤ y then (r.get? x.toNat y.toNat).getD default else default

/-- Applies a function to the content in column `x` and row `y`, if there is such a cell. -/
def modify (r : Raster α) (x y : Nat) (f : α → α) : Raster α :=
  if x < r.width then
    { r with
      cells := r.cells.modify (y * r.width + x) f
      size_cells := by simp [r.size_cells] }
  else r

def map (f : α → β) (r : Raster α) : Raster β where
  width := r.width
  height := r.height
  cells := r.cells.map f
  size_cells := by simp [r.size_cells]

def toList (r : Raster α) : List α := r.cells.toList

/-! ## The cells of a raster -/

@[simp] theorem width_ofFn (w h : Nat) (f : Nat → Nat → α) : (ofFn w h f).width = w := rfl

@[simp] theorem height_ofFn (w h : Nat) (f : Nat → Nat → α) : (ofFn w h f).height = h := rfl

@[simp] theorem width_filled (w h : Nat) (a : α) : (filled w h a).width = w := rfl

@[simp] theorem height_filled (w h : Nat) (a : α) : (filled w h a).height = h := rfl

@[simp] theorem width_map (f : α → β) (r : Raster α) : (r.map f).width = r.width := rfl

@[simp] theorem height_map (f : α → β) (r : Raster α) : (r.map f).height = r.height := rfl

@[simp] theorem width_modify (r : Raster α) (x y : Nat) (f : α → α) :
    (r.modify x y f).width = r.width := by
  unfold modify; split <;> rfl

@[simp] theorem height_modify (r : Raster α) (x y : Nat) (f : α → α) :
    (r.modify x y f).height = r.height := by
  unfold modify; split <;> rfl

/-- A cell of a rectangle has its own place in row-major order. -/
theorem cell_lt {x y w h : Nat} (hx : x < w) (hy : y < h) : y * w + x < w * h := by
  calc y * w + x < y * w + w := by omega
    _ = (y + 1) * w := by rw [Nat.add_mul, Nat.one_mul]
    _ ≤ h * w := Nat.mul_le_mul_right w hy
    _ = w * h := Nat.mul_comm h w

theorem get?_ofFn {w h x y : Nat} (f : Nat → Nat → α) (hx : x < w) (hy : y < h) :
    (ofFn w h f).get? x y = some (f x y) := by
  have hw : 0 < w := by omega
  have hlt := cell_lt hx hy
  simp only [get?, hx, if_true, ofFn]
  rw [Array.getElem?_eq_getElem (by simpa using hlt)]
  simp [Nat.mul_comm y w, Nat.mod_eq_of_lt hx, Nat.mul_add_div hw,
    Nat.div_eq_of_lt hx]

theorem get?_eq_none {r : Raster α} {x y : Nat} (h : r.width ≤ x ∨ r.height ≤ y) :
    r.get? x y = none := by
  unfold get?
  split
  · next hx =>
    have hy : r.height ≤ y := by omega
    rw [Array.getElem?_eq_none]
    rw [r.size_cells, Nat.mul_comm r.width]
    exact Nat.le_add_right_of_le (Nat.mul_le_mul_right _ hy)
  · rfl

end Raster

end IsoScene
