import IsoScene.Proofs.Raster.Cells
import IsoScene.Raster.Blend
import Mathlib.Data.List.Basic

/-! # Drawing, cell by cell

The loops that draw an image onto another one meet every cell of the canvas at most once. So what
becomes of a cell depends on this cell and on the cell of the sprite that lies on it, if there is
one, and on nothing else: `get?_blit`.

Each turn of a loop acts on one cell by itself (`get?_foldl`). The whole loop is then a run over the
content of that cell, and along an axis one turn of it counts at most (`foldl_span`).
-/

namespace IsoScene

/-- A colour with the cell of a sprite on it, if there is one. -/
def Rgba.under (dst : Rgba) : Option Rgba → Rgba
  | none => dst
  | some src => if src.isVisible then src.onto dst else dst

theorem Rgba.under_of_opaque {src dst : Rgba} (solid : src.alpha = 255) :
    dst.under (some src) = src := by
  have visible : src.isVisible = true := by simp [isVisible, solid]
  rw [under, visible, if_pos rfl, onto_of_opaque solid]

namespace Raster

@[simp] theorem width_drawCell (canvas : Image) (x y : Nat) (src : Option Rgba) :
    (canvas.drawCell x y src).width = canvas.width := by
  cases src with
  | none => rfl
  | some src => simp only [drawCell]; split <;> simp

@[simp] theorem height_drawCell (canvas : Image) (x y : Nat) (src : Option Rgba) :
    (canvas.drawCell x y src).height = canvas.height := by
  cases src with
  | none => rfl
  | some src => simp only [drawCell]; split <;> simp

theorem get?_drawCell (canvas : Image) (x y : Nat) (src : Option Rgba) (i j : Nat) :
    (canvas.drawCell x y src).get? i j = (canvas.get? i j).map fun dst =>
      if x = i ∧ y = j then dst.under src else dst := by
  cases src with
  | none => simp [drawCell, Rgba.under]
  | some src =>
    by_cases visible : src.isVisible
    · simp only [drawCell, Rgba.under, visible, if_true]
      exact get?_modify canvas x y src.onto i j
    · simp [drawCell, Rgba.under, visible]

/-! ## Loops -/

section
variable {β : Type} {steps : List β} {step : Image → β → Image}

/-- If each turn of a loop acts on a cell by itself, so does the loop. -/
theorem get?_foldl {effect : Rgba → β → Rgba} {i j : Nat}
    (acts : ∀ canvas b, (step canvas b).get? i j = (canvas.get? i j).map (effect · b))
    (canvas : Image) :
    (steps.foldl step canvas).get? i j = (canvas.get? i j).map (steps.foldl effect ·) := by
  induction steps generalizing canvas with
  | nil => simp
  | cons b steps ih =>
    rw [List.foldl_cons, ih, acts, Option.map_map]
    rfl

theorem width_foldl (keeps : ∀ canvas b, (step canvas b).width = canvas.width) (canvas : Image) :
    (steps.foldl step canvas).width = canvas.width := by
  induction steps generalizing canvas with
  | nil => rfl
  | cons b steps ih => rw [List.foldl_cons, ih, keeps]

theorem height_foldl (keeps : ∀ canvas b, (step canvas b).height = canvas.height)
    (canvas : Image) : (steps.foldl step canvas).height = canvas.height := by
  induction steps generalizing canvas with
  | nil => rfl
  | cons b steps ih => rw [List.foldl_cons, ih, keeps]

end

section
variable {α : Type} (act : α → Nat → α) (origin : Int) {limit place : Nat}

/-- Of the cells that a loop still has to look at on one axis, at most one has a given place. -/
theorem foldl_reached (inside : place < limit) (i remaining : Nat) (start : α) :
    ((reached origin limit i remaining).filterMap fun (i, place) =>
        if 0 ≤ place ∧ place < limit then some (i, place.toNat) else none).foldl
        (fun content cell => if cell.2 = place then act content cell.1 else content) start =
      if (i : Int) ≤ place - origin ∧ place - origin < i + remaining then
        act start ((place : Int) - origin).toNat
      else start := by
  induction remaining generalizing i start with
  | zero =>
    rw [if_neg (by omega)]
    rfl
  | succ remaining ih =>
    rw [reached]
    by_cases below : origin + i < limit
    · rw [if_pos below, List.filterMap_cons]
      by_cases onCanvas : 0 ≤ origin + i
      · simp only [onCanvas, below, and_self, if_true, List.foldl_cons]
        rw [ih]
        by_cases here : (origin + i).toNat = place
        · -- This is the cell; the later ones lie behind it.
          have index : ((place : Int) - origin).toNat = i := by omega
          rw [if_pos here, if_neg (by omega), if_pos (by omega), index]
        · rw [if_neg here]
          exact if_congr (by omega) rfl rfl
      · simp only [onCanvas, false_and, if_false]
        rw [ih]
        exact if_congr (by omega) rfl rfl
    · -- The loop ends at the first place beyond the canvas.
      rw [if_neg below, if_neg (by omega)]
      simp [below]

theorem foldl_span (inside : place < limit) (count : Nat) (start : α) :
    (span origin limit count).foldl
        (fun content cell => if cell.2 = place then act content cell.1 else content) start =
      if 0 ≤ (place : Int) - origin ∧ (place : Int) - origin < count then
        act start ((place : Int) - origin).toNat
      else start := by
  rw [span, foldl_reached act origin inside]
  exact if_congr (by omega) rfl rfl

end

/-! ## The whole image -/

@[simp] theorem width_blit (canvas sprite : Image) (x y : Int) :
    (canvas.blit sprite x y).width = canvas.width :=
  width_foldl (fun _ _ => width_foldl (fun _ _ => width_drawCell ..) _) _

@[simp] theorem height_blit (canvas sprite : Image) (x y : Int) :
    (canvas.blit sprite x y).height = canvas.height :=
  height_foldl (fun _ _ => height_foldl (fun _ _ => height_drawCell ..) _) _

/-- Drawing leaves every cell of the canvas with the cell of the sprite on it that lies there. -/
theorem get?_blit (canvas sprite : Image) (x y : Int) (i j : Nat) :
    (canvas.blit sprite x y).get? i j =
      (canvas.get? i j).map (·.under (sprite.at? (i - x) (j - y))) := by
  cases found : canvas.get? i j with
  | none =>
    have outside : ¬ ((canvas.blit sprite x y).get? i j).isSome := by
      rw [isSome_get?_iff, width_blit, height_blit, ← isSome_get?_iff, found]
      simp
    simpa using outside
  | some dst =>
    obtain ⟨hi, hj⟩ := isSome_get?_iff.mp (Option.isSome_of_eq_some found)
    let columns := span x canvas.width sprite.width
    let drawRow (dst : Rgba) (row : Nat) : Rgba := columns.foldl
      (fun dst column => if column.2 = i then dst.under (sprite.get? column.1 row) else dst) dst
    -- A row acts on the cell only if it is drawn where the cell is,
    have rows : ∀ (image : Image) (row : Nat × Nat),
        (columns.foldl
          (fun image column => image.drawCell column.2 row.2 (sprite.get? column.1 row.1))
          image).get? i j =
        (image.get? i j).map fun dst => if row.2 = j then drawRow dst row.1 else dst := by
      intro image row
      rw [get?_foldl fun image column => get?_drawCell image column.2 row.2 _ i j]
      by_cases here : row.2 = j
      · simp only [here, and_true, if_true, drawRow]
      · simp only [here, and_false, if_false, List.foldl_fixed]
    -- and then by the one column that is drawn where the cell is.
    have column (row : Nat) : drawRow dst row = dst.under
        (if 0 ≤ (i : Int) - x ∧ (i : Int) - x < sprite.width then
          sprite.get? ((i : Int) - x).toNat row
        else none) := by
      refine (foldl_span (fun dst column => dst.under (sprite.get? column row)) x hi _ dst).trans ?_
      split <;> rfl
    rw [blit, get?_foldl rows, found, Option.map_some, Option.map_some, foldl_span drawRow y hj,
      column, at?_eq]
    split <;> rfl

end Raster

end IsoScene
