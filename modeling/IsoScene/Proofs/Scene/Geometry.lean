import IsoScene.Effect.Geometry
import IsoScene.Proofs.Failure

/-! # The geometric pass

Only displacements can be malformed, and the first malformed one decides the error of the pass
(`resolveGeometry_eq_error_iff`), wherever the tile stands. Variants that name no geometric effect
are left as they are (`resolveGeometry_of_not_geometric`).
-/

namespace IsoScene

/-- The variant asks for a displacement that cannot be read. -/
def Variant.IsMalformed (v : Variant) (e : UserError) : Prop :=
  (v.name = "displace" ∨ v.name = "disp") ∧ GeometricEffect.parseDisplace v.arguments = .error e

def geometricNames : List String := ["displace", "disp", "unit", "d", "r", "u", "l"]

theorem GeometricEffect.parse_eq_error_iff {v : Variant} {e : UserError} :
    GeometricEffect.parse v = .error e ↔ v.IsMalformed e := by
  rw [GeometricEffect.parse, Variant.IsMalformed]
  by_cases displaces : v.name = "displace" ∨ v.name = "disp"
  · rw [if_pos displaces]
    cases GeometricEffect.parseDisplace v.arguments <;> simp [Except.map, displaces]
  · rw [if_neg displaces]
    split <;> simp [displaces]

theorem GeometricEffect.parse_of_not_geometric {v : Variant} (other : v.name ∉ geometricNames) :
    GeometricEffect.parse v = .ok none := by
  simp only [geometricNames, List.mem_cons, List.not_mem_nil, or_false, not_or] at other
  obtain ⟨notDisplace, notDisp, notUnit, notDown, notRight, notUp, notLeft⟩ := other
  have noOrientation : GeometricEffect.orientation? v.name = none := by
    rw [GeometricEffect.orientation?]
    · exact notDown
    · exact notRight
    · exact notUp
    · exact notLeft
  simp [GeometricEffect.parse, notDisplace, notDisp, notUnit, noOrientation]

namespace Tile

theorem applyVariants_eq_error_iff {tile : Tile} {variants : List Variant} {e : UserError} :
    tile.applyVariants variants = .error e ↔ FirstFailure Variant.IsMalformed variants e := by
  induction variants generalizing tile with
  | nil => simp [applyVariants]
  | cons v rest ih =>
    rw [applyVariants, FirstFailure.cons]
    simp only [← GeometricEffect.parse_eq_error_iff]
    cases GeometricEffect.parse v with
    | error e' => simp
    | ok effect =>
      cases effect with
      | some effect => simpa using ih
      | none =>
        -- A variant that is kept neither fails nor moves the tile.
        have later := @ih tile
        cases found : tile.applyVariants rest <;> simp [found] at later ⊢ <;> exact later

/-- The pass fails with the first malformed displacement. -/
theorem resolveGeometry_eq_error_iff {tile : Tile} {e : UserError} :
    tile.resolveGeometry = .error e ↔ FirstFailure Variant.IsMalformed tile.variants e := by
  rw [resolveGeometry, ← @applyVariants_eq_error_iff tile]
  cases tile.applyVariants tile.variants <;> simp

/-- Whatever the effect of every variant preserves, the pass preserves. -/
theorem applyVariants_preserves (holds : Tile → Prop) {tile moved : Tile}
    {variants left : List Variant}
    (preserves : ∀ v ∈ variants, ∀ effect, GeometricEffect.parse v = .ok (some effect) →
      ∀ tile, holds tile → holds (Tile.apply tile effect))
    (resolved : tile.applyVariants variants = .ok (moved, left)) (start : holds tile) :
    holds moved := by
  induction variants generalizing tile left with
  | nil =>
    obtain ⟨rfl, rfl⟩ : tile = moved ∧ [] = left := by simpa [applyVariants] using resolved
    exact start
  | cons v rest ih =>
    have later := fun w among => preserves w (List.mem_cons_of_mem v among)
    rw [applyVariants] at resolved
    obtain ⟨effect, parsed, resolved⟩ := bind_eq_ok_iff.mp resolved
    cases effect with
    | some effect =>
      exact ih later resolved (preserves v List.mem_cons_self effect parsed tile start)
    | none =>
      obtain ⟨⟨moved', left'⟩, found, ⟨⟩⟩ := bind_eq_ok_iff.mp resolved
      exact ih later found start

/-- Whatever every single effect keeps, the pass keeps. -/
theorem applyVariants_keeps {α : Type} (view : Tile → α)
    (keeps : ∀ tile effect, view (Tile.apply tile effect) = view tile) {tile moved : Tile}
    {variants left : List Variant} (resolved : tile.applyVariants variants = .ok (moved, left)) :
    view moved = view tile := by
  refine applyVariants_preserves (fun other => view other = view tile) ?_ resolved rfl
  intro v _ effect _ other same
  rw [keeps, same]

theorem applyVariants_of_not_geometric {tile : Tile} {variants : List Variant}
    (others : ∀ v ∈ variants, v.name ∉ geometricNames) :
    tile.applyVariants variants = .ok (tile, variants) := by
  induction variants with
  | nil => rfl
  | cons v rest ih =>
    obtain ⟨other, othersLater⟩ := List.forall_mem_cons.mp others
    rw [applyVariants, GeometricEffect.parse_of_not_geometric other, ok_bind, ih othersLater]
    rfl

/-- Without geometric effects the tile stays as it is. -/
theorem resolveGeometry_of_not_geometric {tile : Tile}
    (others : ∀ v ∈ tile.variants, v.name ∉ geometricNames) :
    tile.resolveGeometry = .ok tile := by
  rw [resolveGeometry, applyVariants_of_not_geometric others]
  rfl

end Tile

end IsoScene
