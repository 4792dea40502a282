import IsoScene.Proofs.Effect.Surround

/-! # Edges on the whole plane

The edge kernel works in a window, and it counts everything outside as dark. On the plane there is no
border and nothing is cut off. Light goes one step with each pass, so nothing of it leaves a window
that has as many cells around an image as there are passes: there the window shows what the plane
shows (`light_edgesTimes`), and a wider window shows nothing more (`padding_suffices`).
-/

namespace IsoScene

/-- Levels at all the places of the plane. -/
abbrev Plane := Point → Int

namespace Plane

/-- One pass of the edge kernel. -/
def edges (plane : Plane) : Plane := fun p =>
  max 0 (min ((p.around.map plane).sum - 4 * plane p) 255)

def edgesTimes (plane : Plane) : Nat → Plane
  | 0 => plane
  | passes + 1 => (edgesTimes plane passes).edges

theorem edges_of_dark {plane : Plane} {p : Point} (own : plane p = 0)
    (around : ∀ q ∈ p.around, plane q = 0) : plane.edges p = 0 := by
  have none : (p.around.map plane).sum = 0 := by
    refine List.sum_eq_zero fun level member => ?_
    obtain ⟨q, next, rfl⟩ := List.mem_map.mp member
    exact around q next
  rw [edges, none, own]
  rfl

end Plane

namespace Raster

/-! ## Windows on the plane -/

section
variable {channel : Raster UInt8} {passes : Nat}

/-- A window shows the plane if no light can have left it. -/
theorem light_edgesTimes
    (room : ∀ p q, channel.light q ≠ 0 → p.distance q ≤ passes → channel.Holds p) :
    (channel.edgesTimes passes).light = Plane.edgesTimes channel.light passes := by
  induction passes with
  | zero => rfl
  | succ passes ih =>
    have before := ih fun p q lit near => room p q lit (by omega)
    funext p
    rw [edgesTimes, Plane.edgesTimes, ← before]
    by_cases held : (channel.edgesTimes passes).Holds p
    · exact light_edges held
    · rw [light_of_not_holds (holds_edges.not.mpr held)]
      refine (Plane.edges_of_dark (light_of_not_holds held) fun q next => ?_).symm
      -- Light next to this place has come from so near that the window would hold this place too.
      by_contra lit
      obtain ⟨r, litFirst, near⟩ := exists_lit_of_edgesTimes lit
      have step := Point.distance_of_around next r
      exact held (holds_edgesTimes.mpr (room p r litFirst (by omega)))

theorem width_edgesTimes : (channel.edgesTimes passes).width = channel.width := by
  induction passes with
  | zero => rfl
  | succ passes ih => exact ih

theorem height_edgesTimes : (channel.edgesTimes passes).height = channel.height := by
  induction passes with
  | zero => rfl
  | succ passes ih => exact ih

theorem get?_of_holds {x y : Nat} (held : channel.Holds (x, y)) :
    channel.get? x y = some (UInt8.ofNat (channel.light (x, y)).toNat) := by
  obtain ⟨level, found⟩ :=
    exists_get? (Int.ofNat_lt.mp held.1.2) (Int.ofNat_lt.mp held.2.2)
  rw [light, Raster.level, sample_eq_at?, at?_ofNat, found]
  simp

end

/-! ## The space around an image -/

theorem around_inner (size : Nat) (p : Point) :
    (inner size p).around = p.around.map (inner size) := by
  have back (n : Int) : n - size - 1 = n - 1 - size := by omega
  have forth (n : Int) : n - size + 1 = n + 1 - size := by omega
  simp only [Point.around, inner, back, forth, List.map_cons, List.map_nil]

/-- On the plane it does not matter where an image is. -/
theorem edgesTimes_comp_inner (plane : Plane) (size passes : Nat) :
    Plane.edgesTimes (plane ∘ inner size) passes = plane.edgesTimes passes ∘ inner size := by
  induction passes with
  | zero => rfl
  | succ passes ih =>
    funext p
    rw [Plane.edgesTimes, ih, Function.comp_apply, Plane.edgesTimes, Plane.edges, Plane.edges,
      around_inner, List.map_map]
    rfl

theorem light_pad (image : Image) (size : Nat) :
    (image.pad size).alpha.light = image.alpha.light ∘ inner size := by
  funext p
  rw [light_alpha, sample_pad, Function.comp_apply, light_alpha]

theorem light_edgesTimes_pad (image : Image) {passes size : Nat} (few : passes ≤ size) :
    ((image.pad size).alpha.edgesTimes passes).light =
      Plane.edgesTimes image.alpha.light passes ∘ inner size := by
  rw [light_edgesTimes, light_pad, edgesTimes_comp_inner]
  intro p q lit near
  refine holds_pad ?_ (Nat.le_trans near few)
  by_contra hidden
  exact lit (light_alpha_eq_zero_iff.mpr hidden)

section
variable (image : Image) (passes margin : Nat)

theorem light_edgesTimes_wider (p : Point) :
    ((image.pad (passes + margin)).alpha.edgesTimes passes).light p =
      ((image.pad passes).alpha.edgesTimes passes).light (inner margin p) := by
  have place : inner (passes + margin) p = inner passes (inner margin p) := by
    simp only [inner, Int.natCast_add, Prod.mk.injEq]
    omega
  rw [light_edgesTimes_pad image (Nat.le_add_right passes margin),
    light_edgesTimes_pad image (Nat.le_refl passes), Function.comp_apply, Function.comp_apply,
    place]

theorem width_edgesTimes_pad (size : Nat) :
    ((image.pad size).alpha.edgesTimes passes).width = image.width + 2 * size := by
  rw [width_edgesTimes, alpha, width_map, pad, width_ofFn]

theorem height_edgesTimes_pad (size : Nat) :
    ((image.pad size).alpha.edgesTimes passes).height = image.height + 2 * size := by
  rw [height_edgesTimes, alpha, height_map, pad, height_ofFn]

theorem get?_edgesTimes_wider (x y : Nat) :
    let near := (image.pad passes).alpha.edgesTimes passes
    let wide := (image.pad (passes + margin)).alpha.edgesTimes passes
    wide.get? x y =
      if (margin ≤ x ∧ x < margin + near.width) ∧ margin ≤ y ∧ y < margin + near.height then
        near.get? (x - margin) (y - margin)
      else if x < wide.width ∧ y < wide.height then some 0 else none := by
  intro near wide
  have width : wide.width = near.width + 2 * margin := by
    simp only [wide, near, width_edgesTimes_pad]
    omega
  have height : wide.height = near.height + 2 * margin := by
    simp only [wide, near, height_edgesTimes_pad]
    omega
  have level : wide.light (x, y) = near.light (inner margin (x, y)) :=
    light_edgesTimes_wider image passes margin (x, y)
  by_cases held : x < wide.width ∧ y < wide.height
  · have holds : wide.Holds (x, y) := by
      simp only [Holds]
      omega
    rw [get?_of_holds holds, level, if_pos held]
    split
    · next inside =>
      have place : inner margin (x, y) = ⟨(x - margin : Nat), (y - margin : Nat)⟩ := by
        simp only [inner, Prod.mk.injEq]
        omega
      have holdsNear : near.Holds ⟨(x - margin : Nat), (y - margin : Nat)⟩ := by
        simp only [Holds]
        omega
      rw [place, get?_of_holds holdsNear]
    · next outside =>
      have beyond : ¬ near.Holds (inner margin (x, y)) := by
        simp only [Holds, inner]
        omega
      rw [light_of_not_holds beyond]
      rfl
  · rw [get?_eq_none (by omega), if_neg held, if_neg (by omega)]

end

/-- With as many cells around an image as there are passes, the window has all the edges that there
are on the plane. More cells on every side stay dark, and change nothing of the others. -/
theorem padding_suffices (image : Image) (passes margin : Nat) :
    let near := (image.pad passes).alpha.edgesTimes passes
    let wide := (image.pad (passes + margin)).alpha.edgesTimes passes
    (near.width = image.width + 2 * passes ∧ near.height = image.height + 2 * passes) ∧
      (wide.width = near.width + 2 * margin ∧ wide.height = near.height + 2 * margin) ∧
      (∀ x y : Nat, wide.get? x y =
        if (margin ≤ x ∧ x < margin + near.width) ∧ margin ≤ y ∧ y < margin + near.height then
          near.get? (x - margin) (y - margin)
        else if x < wide.width ∧ y < wide.height then some 0 else none) ∧
      (∀ p : Point,
        Plane.edgesTimes image.alpha.light passes p = near.light (p.1 + passes, p.2 + passes)) ∧
      ∀ p : Point, Plane.edgesTimes image.alpha.light passes p ≠ 0 →
        near.Holds (p.1 + passes, p.2 + passes) := by
  intro near wide
  have shows (p : Point) : Plane.edgesTimes image.alpha.light passes p =
      near.light (p.1 + passes, p.2 + passes) := by
    have place : inner passes (p.1 + passes, p.2 + passes) = p := by
      simp only [inner, Int.add_sub_cancel]
    rw [light_edgesTimes_pad image (Nat.le_refl passes), Function.comp_apply, place]
  refine ⟨?_, ?_, get?_edgesTimes_wider image passes margin, shows, fun p lit => ?_⟩
  · exact ⟨width_edgesTimes_pad .., height_edgesTimes_pad ..⟩
  · simp only [wide, near, width_edgesTimes_pad, height_edgesTimes_pad]
    omega
  · by_contra beyond
    exact lit ((shows p).trans (light_of_not_holds beyond))

/-- The rings around a translucent cell differ in strength. The outer one just fits. -/
theorem padding_suffices_translucent :
    let image : Image := ofFn 1 1 fun _ _ => ⟨10, 20, 30, 100⟩
    let near := (image.pad 2).alpha.edgesTimes 2
    let wide := (image.pad 3).alpha.edgesTimes 2
    Plane.edgesTimes image.alpha.light 2 (-2, 0) ≠ 0 ∧ near.Holds (0, 2) ∧
      near.get? 0 2 = some 100 ∧ near.get? 1 1 = some 200 ∧ near.get? 2 2 = some 255 ∧
      wide.get? 1 3 = some 100 ∧ wide.get? 0 3 = some 0 := by
  intro image near wide
  obtain ⟨-, -, cells, -, inside⟩ := padding_suffices image 2 1
  have lit : Plane.edgesTimes image.alpha.light 2 (-2, 0) ≠ 0 := by decide +kernel
  refine ⟨lit, inside (-2, 0) lit, by decide +kernel, by decide +kernel, by decide +kernel, ?_, ?_⟩
  · rw [cells 1 3]
    decide +kernel
  · rw [cells 0 3]
    decide +kernel

end Raster

end IsoScene
