import IsoScene.Proofs.Binary64.Grid
import IsoScene.Scene.Projection

/-! # Sprites on the canvas

The canvas and the projection are computed by formulas of their own. In rational numbers they fit
together: a sprite that is not too large lies on the canvas if its tile is within the envelope
(`onCanvas_of_holds`). Coordinates that are multiples of a quarter and of moderate size leave room
for every intermediate result, so on them `Binary64` computes the rational canvas
(`IsModerate.canvasSize`) and the rational corner (`IsModerate.place`).
-/

namespace IsoScene

open Coordinate

/-- The place is within the envelope, and on the positive side of both axes of the ground. -/
structure Envelope.Holds {α : Type} [Coordinate α] [LE α] (e : Envelope α) (place : Position α) :
    Prop where
  x_nonneg : ofInt 0 ≤ place.x
  x_le : place.x ≤ e.width
  y_nonneg : ofInt 0 ≤ place.y
  y_le : place.y ≤ e.height
  minDepth_le : e.minDepth ≤ place.z
  le_maxDepth : place.z ≤ e.maxDepth

/-- A sprite of this size whose top left corner is here lies on the canvas. -/
structure OnCanvas (canvas : Nat × Nat) (corner : Int × Int) (width height : Nat) : Prop where
  left : 0 ≤ corner.1
  right : corner.1 + width ≤ canvas.1
  top : 0 ≤ corner.2
  bottom : corner.2 + height ≤ canvas.2

/-! ## Rational numbers -/

theorem side_rat (q : ℚ) : side q = max 1 ⌈q⌉.toNat := by
  show max 1 q.ceil.toNat = _
  rw [Rat.ceil_eq_neg_floor_neg]
  rfl

theorem canvasSize_rat (e : Envelope ℚ) : e.canvasSize =
    (side ((e.width + e.height + 4) * 12),
      side ((e.height + e.width + 6 + 2 * (e.maxDepth - e.minDepth)) * 12 / 2)) := rfl

theorem place_rat (projection : Projection ℚ) (place : Position ℚ) (groundHeight : Int)
    (width height : Nat) : projection.place place groundHeight width height =
      (⌊(place.x + place.y + 2) * 12 - width / 2⌋,
        ⌊(place.y - place.x + projection.sceneWidth + 3 + 2 * projection.maxDepth) * 12 / 2 -
          height / 2 + groundHeight * 3 - place.z * 12⌋) := rfl

/-- Rounding the corner down and the length up keeps a sprite inside. -/
theorem floor_add_le_side {corner length : ℚ} {size : Nat} (fits : corner + size ≤ length) :
    ⌊corner⌋ + size ≤ side length := by
  have below : (⌊corner⌋ : ℚ) + size ≤ ⌈length⌉ :=
    (add_le_add_left (Int.floor_le corner) _).trans (fits.trans (Int.le_ceil length))
  have whole : ⌊corner⌋ + size ≤ ⌈length⌉ := by exact_mod_cast below
  rw [side_rat]
  omega

theorem onCanvas_of_holds {e : Envelope ℚ} {place : Position ℚ} (inside : e.Holds place)
    {groundHeight : Int} {width height : Nat} (narrow : width ≤ 48)
    (low : (height : ℚ) / 2 + 3 * |(groundHeight : ℚ)| ≤ 18) :
    OnCanvas e.canvasSize (e.projection.place place groundHeight width height) width height := by
  have x_nonneg : 0 ≤ place.x := inside.x_nonneg
  have y_nonneg : 0 ≤ place.y := inside.y_nonneg
  have x_le := inside.x_le
  have y_le := inside.y_le
  have minDepth_le := inside.minDepth_le
  have le_maxDepth := inside.le_maxDepth
  have narrow' : (width : ℚ) ≤ 48 := by exact_mod_cast narrow
  have raised := neg_abs_le (groundHeight : ℚ)
  have lowered := le_abs_self (groundHeight : ℚ)
  rw [canvasSize_rat, place_rat, Envelope.projection]
  -- With the roundings out of the way, each side is a linear inequality of its own.
  constructor
  · exact Int.floor_nonneg.mpr (by linarith)
  · exact floor_add_le_side (by linarith)
  · exact Int.floor_nonneg.mpr (by linarith)
  · exact floor_add_le_side (by linarith)

/-! ## Patterns -/

namespace Binary64

/-- A multiple of a quarter, and at most `2 ^ 26` in amount. -/
abbrev Moderate (x : Binary64) (q : ℚ) : Prop := OnGrid 2 (2 ^ 26) x q

theorem OnGrid.side_eq {places : Nat} {limit : ℚ} {x : Binary64} {q : ℚ}
    (hx : OnGrid places limit x q) (room : limit ≤ 2 ^ 32 - 1) : x.side = Coordinate.side q := by
  have most : ⌈q⌉ ≤ (Text.maxNat32 : Int) := by
    have below : q ≤ 2 ^ 32 - 1 := (le_abs_self q).trans (hx.small.trans room)
    refine Int.ceil_le.mpr (below.trans ?_)
    norm_num [Text.maxNat32]
  rw [side_of_denotes hx.denotes, side_rat, min_eq_right (by omega)]

theorem OnGrid.floor64_eq {places : Nat} {limit : ℚ} {x : Binary64} {q : ℚ}
    (hx : OnGrid places limit x q) (room : limit < 2 ^ 63) : x.floor64 = ⌊q⌋ := by
  obtain ⟨above, below⟩ := abs_lt.mp (hx.small.trans_lt room)
  have least : Text.minInt64 ≤ ⌊q⌋ := by
    refine Int.le_floor.mpr (le_trans ?_ above.le)
    norm_num [Text.minInt64]
  have most : ⌊q⌋ < 2 ^ 63 := Int.floor_lt.mpr (by exact_mod_cast below)
  rw [floor64_of_denotes hx.denotes, min_eq_right, max_eq_right least]
  simp only [Text.maxInt64]
  omega

end Binary64

structure Envelope.Moderate (e : Envelope Binary64) (r : Envelope ℚ) : Prop where
  width : e.width.Moderate r.width
  height : e.height.Moderate r.height
  minDepth : e.minDepth.Moderate r.minDepth
  maxDepth : e.maxDepth.Moderate r.maxDepth

structure Position.Moderate (place : Position Binary64) (r : Position ℚ) : Prop where
  x : place.x.Moderate r.x
  y : place.y.Moderate r.y
  z : place.z.Moderate r.z

theorem Envelope.Moderate.canvasSize_eq {e : Envelope Binary64} {r : Envelope ℚ}
    (moderate : e.Moderate r) : e.canvasSize = r.canvasSize := by
  obtain ⟨width, height, minDepth, maxDepth⟩ := moderate
  have two : Binary64.OnGrid 0 2 (.ofInt 2) ((2 : Int) : ℚ) := .ofInt (by norm_num)
  have four : Binary64.OnGrid 0 4 (.ofInt 4) ((4 : Int) : ℚ) := .ofInt (by norm_num)
  have six : Binary64.OnGrid 0 6 (.ofInt 6) ((6 : Int) : ℚ) := .ofInt (by norm_num)
  have twelve : Binary64.OnGrid 0 12 (.ofInt step) (step : ℚ) := .ofInt (by norm_num [step])
  have columns := ((width.add height).add four).mul twelve
  have lines := (((height.add width).add six).add (two.mul (maxDepth.sub minDepth))).mul twelve
  have rows := lines.div 1 two.denotes
  have sameWidth := columns.side_eq (by norm_num)
  have sameHeight := rows.side_eq (by norm_num)
  exact Prod.ext sameWidth sameHeight

theorem Envelope.Moderate.place_eq {e : Envelope Binary64} {r : Envelope ℚ}
    (moderate : e.Moderate r) {place : Position Binary64} {q : Position ℚ}
    (moderatePlace : place.Moderate q) {groundHeight : Int} (level : |groundHeight| ≤ 2 ^ 31)
    {width height : Nat} (narrow : width < 2 ^ 32) (low : height < 2 ^ 32) :
    e.projection.place place groundHeight width height =
      r.projection.place q groundHeight width height := by
  obtain ⟨sceneWidth, -, -, maxDepth⟩ := moderate
  obtain ⟨x, y, z⟩ := moderatePlace
  have size {n : Nat} (small : n < 2 ^ 32) :
      Binary64.OnGrid 0 (2 ^ 32) (.ofInt n) ((n : Int) : ℚ) := by
    refine .ofInt ?_
    rw [Int.cast_natCast, Nat.abs_cast]
    exact_mod_cast small.le
  have lift : Binary64.OnGrid 0 (2 ^ 31) (.ofInt groundHeight) (groundHeight : ℚ) :=
    .ofInt (by exact_mod_cast level)
  have two : Binary64.OnGrid 0 2 (.ofInt 2) ((2 : Int) : ℚ) := .ofInt (by norm_num)
  have three : Binary64.OnGrid 0 3 (.ofInt 3) ((3 : Int) : ℚ) := .ofInt (by norm_num)
  have twelve : Binary64.OnGrid 0 12 (.ofInt step) (step : ℚ) := .ofInt (by norm_num [step])
  -- Each step is on a grid of at most three places and below `2 ^ 34`, so no bit is lost.
  have column := (((x.add y).add two).mul twelve).sub ((size narrow).div 1 two.denotes)
  have diagonal := (((y.sub x).add sceneWidth).add three).add (two.mul maxDepth)
  have line := (diagonal.mul twelve).div 1 two.denotes
  have row := ((line.sub ((size low).div 1 two.denotes)).add (lift.mul three)).sub (z.mul twelve)
  exact Prod.ext (column.floor64_eq (by norm_num)) (row.floor64_eq (by norm_num))

/-- On moderate coordinates the comparisons are those of the rational numbers. -/
theorem Envelope.Moderate.holds_iff {e : Envelope Binary64} {r : Envelope ℚ}
    (moderate : e.Moderate r) {place : Position Binary64} {q : Position ℚ}
    (moderatePlace : place.Moderate q) : e.Holds place ↔ r.Holds q := by
  have zero : (Binary64.ofInt 0).Denotes ((0 : Int) : ℚ) := Binary64.ofInt_denotes (by decide)
  have order {x y : Binary64} {a b : ℚ} (hx : x.Denotes a) (hy : y.Denotes b) : x ≤ y ↔ a ≤ b :=
    Binary64.le_iff_of_denotes hx hy
  obtain ⟨width, height, minDepth, maxDepth⟩ := moderate
  obtain ⟨x, y, z⟩ := moderatePlace
  constructor
  · rintro ⟨x_nonneg, x_le, y_nonneg, y_le, minDepth_le, le_maxDepth⟩
    exact ⟨(order zero x.denotes).mp x_nonneg, (order x.denotes width.denotes).mp x_le,
      (order zero y.denotes).mp y_nonneg, (order y.denotes height.denotes).mp y_le,
      (order minDepth.denotes z.denotes).mp minDepth_le,
      (order z.denotes maxDepth.denotes).mp le_maxDepth⟩
  · rintro ⟨x_nonneg, x_le, y_nonneg, y_le, minDepth_le, le_maxDepth⟩
    exact ⟨(order zero x.denotes).mpr x_nonneg, (order x.denotes width.denotes).mpr x_le,
      (order zero y.denotes).mpr y_nonneg, (order y.denotes height.denotes).mpr y_le,
      (order minDepth.denotes z.denotes).mpr minDepth_le,
      (order z.denotes maxDepth.denotes).mpr le_maxDepth⟩

theorem Envelope.Moderate.onCanvas {e : Envelope Binary64} {r : Envelope ℚ}
    (moderate : e.Moderate r) {place : Position Binary64} {q : Position ℚ}
    (moderatePlace : place.Moderate q) (inside : e.Holds place) {groundHeight : Int}
    {width height : Nat} (narrow : width ≤ 48)
    (low : (height : ℚ) / 2 + 3 * |(groundHeight : ℚ)| ≤ 18) :
    OnCanvas e.canvasSize (e.projection.place place groundHeight width height) width height := by
  have level : |groundHeight| ≤ 2 ^ 31 := by
    have positive : (0 : ℚ) ≤ height := Nat.cast_nonneg height
    have small : |(groundHeight : ℚ)| ≤ 2 ^ 31 := by linarith
    exact_mod_cast small
  have short : height < 2 ^ 32 := by
    have positive := abs_nonneg (groundHeight : ℚ)
    have small : (height : ℚ) < 2 ^ 32 := by linarith
    exact_mod_cast small
  rw [moderate.canvasSize_eq, moderate.place_eq moderatePlace level (by omega) short]
  exact onCanvas_of_holds ((moderate.holds_iff moderatePlace).mp inside) narrow low

end IsoScene
