import IsoScene.Proofs.Effect.Histogram
import IsoScene.Proofs.Raster.Rings

/-! # The shape of an outlined image

An image is surrounded by outlines of its dominant colour. The outlines are rings around the places
where the image shows: with a level of `n` they stand at the distances up to `n` that have the
parity of `n`, and the space around the image has room for all of them (`surround_shape`).

Where the image has translucent cells the strengths of the rings vary, but no ring goes farther.
-/

namespace IsoScene.Raster

/-- The places of the plane where an image shows. -/
def shown (image : Image) : Set Point := {p | (image.sample p.1 p.2).isVisible}

theorem light_alpha (image : Image) (p : Point) :
    image.alpha.light p = ((image.sample p.1 p.2).alpha.toNat : Int) := by
  have alpha : image.alpha.sample p.1 p.2 = (image.sample p.1 p.2).alpha := by
    rw [sample_eq_at?, sample_eq_at?, at?, at?]
    split
    · rw [Raster.alpha, get?_map]
      cases image.get? p.1.toNat p.2.toNat <;> rfl
    · rfl
  rw [light, level, alpha]

theorem light_alpha_eq_zero_iff {image : Image} {p : Point} :
    image.alpha.light p = 0 ↔ p ∉ image.shown := by
  have byte : (image.sample p.1 p.2).alpha.toNat = 0 ↔ (image.sample p.1 p.2).alpha = 0 := by
    rw [← UInt8.toNat_inj]
    rfl
  rw [light_alpha]
  simp [shown, Rgba.isVisible, byte]

theorem holds_of_mem_shown {image : Image} {p : Point} (member : p ∈ image.shown) :
    image.Holds p := by
  by_contra beyond
  rw [shown, Set.mem_ofPred_eq, sample_of_not_holds beyond] at member
  cases member

theorem exists_get?_of_mem_shown {image : Image} {p : Point} (member : p ∈ image.shown) :
    ∃ x y c, image.get? x y = some c ∧ image.sample p.1 p.2 = c ∧ c.isVisible := by
  rw [shown, Set.mem_ofPred_eq, sample_eq_at?] at member
  cases found : image.at? p.1 p.2 with
  | none =>
    rw [found] at member
    cases member
  | some c =>
    have cell := sample_eq_at? image p.1 p.2
    rw [found] at member cell
    rw [at?] at found
    split at found
    · exact ⟨_, _, c, found, cell, member⟩
    · cases found

theorem visible_ne_nil_of_shown {image : Image} (some : image.shown.Nonempty) :
    image.visible ≠ [] := by
  obtain ⟨p, member⟩ := some
  obtain ⟨x, y, c, found, -, visible⟩ := exists_get?_of_mem_shown member
  have cell : c ∈ image.toList := mem_toList_iff.mpr ⟨x, y, found⟩
  exact List.ne_nil_of_mem (List.mem_filter.mpr ⟨cell, visible⟩)

/-! ## The space around an image -/

/-- The place of the image that a place of the padded image shows. -/
def inner (size : Nat) (p : Point) : Point := (p.1 - size, p.2 - size)

theorem sample_pad (image : Image) (size : Nat) (p : Point) :
    (image.pad size).sample p.1 p.2 = image.sample (inner size p).1 (inner size p).2 := by
  rw [pad, sample_ofFn]
  split
  · next inside =>
    rw [Int.toNat_of_nonneg inside.1.1, Int.toNat_of_nonneg inside.2.1]
    rfl
  · next outside =>
    refine (sample_of_not_holds ?_).symm
    simp only [Holds, inner]
    omega

theorem sample_add_sub {image : Image} {x y : Nat} {c : Rgba} (found : image.get? x y = some c)
    (size : Nat) :
    image.sample (((x + size : Nat) : Int) - size) (((y + size : Nat) : Int) - size) = c := by
  rw [sample_eq_at?, Int.natCast_add, Int.natCast_add, Int.add_sub_cancel, Int.add_sub_cancel,
    at?_ofNat, found]
  rfl

theorem get?_pad_add {image : Image} {x y : Nat} {c : Rgba} (found : image.get? x y = some c)
    (size : Nat) : (image.pad size).get? (x + size) (y + size) = some c := by
  obtain ⟨hx, hy⟩ := isSome_get?_iff.mp (Option.isSome_of_eq_some found)
  rw [pad, get?_ofFn _ (by omega) (by omega), sample_add_sub found]

theorem mem_shown_pad_iff {image : Image} {size : Nat} {p : Point} :
    p ∈ (image.pad size).shown ↔ inner size p ∈ image.shown := by
  simp only [shown, Set.mem_ofPred_eq, sample_pad]

theorem distance_inner (size : Nat) (p q : Point) :
    (inner size p).distance (inner size q) = p.distance q := by
  simp only [Point.distance, inner]
  omega

theorem isDistanceTo_pad_iff {image : Image} {size : Nat} {p : Point} {d : Nat} :
    IsDistanceTo (image.pad size).shown p d ↔ IsDistanceTo image.shown (inner size p) d := by
  have same : p.distance '' (image.pad size).shown =
      (inner size p).distance '' image.shown := by
    ext e
    constructor
    · rintro ⟨q, member, rfl⟩
      exact ⟨inner size q, mem_shown_pad_iff.mp member, distance_inner size p q⟩
    · rintro ⟨q, member, rfl⟩
      have back : inner size (q.1 + size, q.2 + size) = q := by
        simp only [inner, Int.add_sub_cancel]
      refine ⟨(q.1 + size, q.2 + size), mem_shown_pad_iff.mpr (by rwa [back]), ?_⟩
      rw [← distance_inner size, back]
  rw [IsDistanceTo, IsDistanceTo, same]

/-- There is room for as many steps as cells have been added on every side. -/
theorem holds_pad {image : Image} {size : Nat} {p q : Point} (member : q ∈ (image.pad size).shown)
    (near : p.distance q ≤ size) : (image.pad size).alpha.Holds p := by
  have held := holds_of_mem_shown (mem_shown_pad_iff.mp member)
  simp only [Holds, inner, Point.distance, alpha, pad, width_map, height_map, width_ofFn,
    height_ofFn] at held near ⊢
  omega

/-! ## The outlines -/

theorem scale_zero (color : Rgba) : color.scale 0 = Rgba.transparent := by
  simp [Rgba.scale, Rgba.map, Rgba.scaleChannel, Rgba.transparent]

theorem scale_full (color : Rgba) : color.scale 255 = color := by
  have whole (channel : UInt8) : Rgba.scaleChannel 255 channel = channel := by
    rw [Rgba.scaleChannel, Nat.mul_comm]
    exact (congrArg UInt8.ofNat (Nat.mul_div_cancel _ (by decide))).trans UInt8.ofNat_toNat
  simp [Rgba.scale, Rgba.map, whole]

/-- The strength of the outlines at a place. -/
def strength (image : Image) (level : Nat) (p : Point) : UInt8 :=
  ((image.pad level).alpha.edgesTimes level).sample p.1 p.2

theorem get?_surround (image : Image) (level : Nat) {x y : Nat}
    (hx : x < image.width + 2 * level) (hy : y < image.height + 2 * level) :
    (image.surround level).get? x y = some (
      let cell := image.sample ((x : Int) - level) ((y : Int) - level)
      if cell.isVisible then if level % 2 = 0 then cell else Rgba.transparent
      else image.dominant.scale (image.strength level (x, y))) := by
  have padded : (image.pad level).get? x y =
      some (image.sample ((x : Int) - level) ((y : Int) - level)) := get?_ofFn _ hx hy
  have kept : (((image.pad level).alpha.edgesTimes level).get? x y).getD 0 =
      image.strength level (x, y) := by
    rw [strength, sample_eq_at?, at?_ofNat]
    rfl
  have wide : x < (image.pad level).width := hx
  have high : y < (image.pad level).height := hy
  rw [surround, get?_ofFn _ wide high, padded, kept, Option.getD_some]

theorem strength_toNat (image : Image) (level : Nat) (p : Point) :
    ((image.strength level p).toNat : Int) =
      ((image.pad level).alpha.edgesTimes level).light p := rfl

section
variable {image : Image} {level : Nat} {p : Point}

theorem strength_of_far (far : ∀ q ∈ image.shown, level < (inner level p).distance q) :
    image.strength level p = 0 := by
  rw [← UInt8.toNat_inj, ← Int.ofNat_inj, strength_toNat]
  by_contra lit
  -- The light has come from a place that is not farther away than there are passes.
  obtain ⟨q, litFirst, near⟩ := exists_lit_of_edgesTimes lit
  have member : q ∈ (image.pad level).shown := by
    by_contra hidden
    exact litFirst (light_alpha_eq_zero_iff.mpr hidden)
  have distant := far _ (mem_shown_pad_iff.mp member)
  rw [distance_inner] at distant
  omega

/-- The alphas are those of full and of empty cells. -/
def IsFlat (image : Image) : Prop :=
  ∀ x y c, image.get? x y = some c → c.alpha = 0 ∨ c.alpha = 255

theorem IsFlat.light_of_mem_shown (flat : image.IsFlat) (member : p ∈ (image.pad level).shown) :
    (image.pad level).alpha.light p = 255 := by
  obtain ⟨x, y, c, found, cell, visible⟩ := exists_get?_of_mem_shown (mem_shown_pad_iff.mp member)
  obtain hidden | full := flat x y c found
  · simp [Rgba.isVisible, hidden] at visible
  · rw [light_alpha, sample_pad, cell, full]
    rfl

theorem IsFlat.hasRings (flat : image.IsFlat) :
    ((image.pad level).alpha.edgesTimes level).HasRings (image.pad level).shown level := by
  have start : (image.pad level).alpha.HasRings (image.pad level).shown 0 := by
    constructor
    · intro p d here far
      have hidden : p ∉ (image.pad level).shown := by
        rw [← IsDistanceTo.zero_iff]
        exact fun inside => far (Nat.le_zero.mp (here.2 inside.1))
      rw [light_alpha_eq_zero_iff.mpr hidden, ringLight, if_neg (by omega)]
    · intro p member _ _ _
      rw [flat.light_of_mem_shown member, ringLight, if_pos (by omega)]
  exact start.edgesTimes (fun p q member near => holds_pad member near) (Nat.le_refl level)

theorem IsFlat.strength_eq (flat : image.IsFlat) {d : Nat}
    (here : IsDistanceTo image.shown (inner level p) d) (outside : d ≠ 0) :
    image.strength level p = if d ≤ level ∧ d % 2 = level % 2 then 255 else 0 := by
  have ring := flat.hasRings.outside p d (isDistanceTo_pad_iff.mpr here) outside
  rw [← strength_toNat, ringLight] at ring
  rw [← UInt8.toNat_inj, ← Int.ofNat_inj, ring]
  split <;> rfl

end

section
variable {image : Image} {level x y : Nat}

/-- The image lies in the middle. -/
theorem get?_surround_add {c : Rgba} (found : image.get? x y = some c) :
    (image.surround level).get? (x + level) (y + level) = some (
      if c.isVisible then if level % 2 = 0 then c else Rgba.transparent
      else image.dominant.scale (image.strength level (x + level, y + level))) := by
  obtain ⟨hx, hy⟩ := isSome_get?_iff.mp (Option.isSome_of_eq_some found)
  rw [get?_surround image level (by omega) (by omega), sample_add_sub found]
  rfl

theorem get?_surround_of_visible {c : Rgba} (found : image.get? x y = some c)
    (visible : c.isVisible) :
    (image.surround level).get? (x + level) (y + level) =
      some (if level % 2 = 0 then c else Rgba.transparent) := by
  rw [get?_surround_add found]
  exact congrArg some (if_pos visible)

/-- Elsewhere there are only the outlines. -/
theorem get?_surround_of_not_shown (hx : x < image.width + 2 * level)
    (hy : y < image.height + 2 * level) (hidden : inner level (x, y) ∉ image.shown) :
    (image.surround level).get? x y =
      some (image.dominant.scale (image.strength level (x, y))) := by
  rw [get?_surround image level hx hy]
  exact congrArg some (if_neg hidden)

theorem get?_surround_of_far (hx : x < image.width + 2 * level)
    (hy : y < image.height + 2 * level)
    (far : ∀ p ∈ image.shown, level < (inner level (x, y)).distance p) :
    (image.surround level).get? x y = some Rgba.transparent := by
  have hidden : inner level (x, y) ∉ image.shown := fun member => by
    have near := far _ member
    rw [Point.distance_eq_zero_iff.mpr rfl] at near
    omega
  rw [get?_surround_of_not_shown hx hy hidden, strength_of_far far, scale_zero]

theorem IsFlat.get?_surround (flat : image.IsFlat) {d : Nat} (hx : x < image.width + 2 * level)
    (hy : y < image.height + 2 * level) (here : IsDistanceTo image.shown (inner level (x, y)) d)
    (outside : d ≠ 0) :
    (image.surround level).get? x y = some (
      if d ≤ level ∧ d % 2 = level % 2 then image.dominant else Rgba.transparent) := by
  have hidden : inner level (x, y) ∉ image.shown := fun member =>
    outside (Nat.le_zero.mp (here.2 (IsDistanceTo.zero_iff.mpr member).1))
  rw [get?_surround_of_not_shown hx hy hidden, flat.strength_eq here outside]
  split
  · rw [scale_full]
  · rw [scale_zero]

end

/-- With a level of `n`, outlines of the dominant colour stand at the distances up to `n` that have
the parity of `n`. The image itself stays inside them if `n` is even. -/
theorem surround_shape (image : Image) (level : Nat) :
    (image.surround level).width = image.width + 2 * level ∧
      (image.surround level).height = image.height + 2 * level ∧
      (∀ x y c, image.get? x y = some c → c.isVisible →
        (image.surround level).get? (x + level) (y + level) =
          some (if level % 2 = 0 then c else Rgba.transparent)) ∧
      (∀ x y : Nat, x < image.width + 2 * level → y < image.height + 2 * level →
        (∀ p ∈ image.shown, level < (inner level (x, y)).distance p) →
          (image.surround level).get? x y = some Rgba.transparent) ∧
      (image.IsFlat →
        ∀ x y d : Nat, x < image.width + 2 * level → y < image.height + 2 * level →
          IsDistanceTo image.shown (inner level (x, y)) d → d ≠ 0 →
            (image.surround level).get? x y = some (
              if d ≤ level ∧ d % 2 = level % 2 then image.dominant else Rgba.transparent)) ∧
      (image.shown.Nonempty → image.IsDominant image.dominant) ∧
      (image.shown = ∅ →
        ∀ x y : Nat, x < image.width + 2 * level → y < image.height + 2 * level →
          (image.surround level).get? x y = some Rgba.transparent) := by
  refine ⟨rfl, rfl, fun _ _ _ => get?_surround_of_visible, fun _ _ => get?_surround_of_far,
    fun flat _ _ _ => flat.get?_surround, ?_, ?_⟩
  · exact fun some => isDominant_dominant (visible_ne_nil_of_shown some)
  · intro nothing x y hx hy
    exact get?_surround_of_far hx hy fun p member => by simp [nothing] at member

/-- The hole of a hollow square is filled by odd levels, and its sides are taken away. -/
theorem surround_shape_hollow :
    let side : Rgba := ⟨10, 20, 30, 255⟩
    let image : Image := ofFn 3 3 fun x y => if x = 1 ∧ y = 1 then Rgba.transparent else side
    image.IsFlat ∧ IsDistanceTo image.shown (inner 3 (4, 4)) 1 ∧
      (image.surround 3).get? 4 4 = some side ∧
      (image.surround 3).get? 3 4 = some Rgba.transparent ∧
      (image.surround 3).get? 0 0 = some Rgba.transparent := by
  intro side image
  obtain ⟨-, -, inside, beyond, rings, -⟩ := surround_shape image 3
  have flat : image.IsFlat := by
    intro x y c found
    obtain ⟨hx, hy⟩ := isSome_get?_iff.mp (Option.isSome_of_eq_some found)
    have cell : image.get? x y = some (if x = 1 ∧ y = 1 then Rgba.transparent else side) :=
      get?_ofFn _ hx hy
    rw [found, Option.some.injEq] at cell
    rw [cell]
    split
    · exact .inl rfl
    · exact .inr rfl
  have hole : IsDistanceTo image.shown (inner 3 (4, 4)) 1 := by
    have touched : ((1, 0) : Point) ∈ image.shown := rfl
    have outside : inner 3 (4, 4) ∉ image.shown := Bool.false_ne_true
    exact IsDistanceTo.eq_one_of_touches touched (by decide) outside
  have dominant : image.dominant = side := by decide +kernel
  refine ⟨flat, hole, ?_, inside 0 1 side rfl rfl, ?_⟩
  · rw [rings flat 4 4 1 (by decide) (by decide) hole (by decide), dominant]
    rfl
  · refine beyond 0 0 (by decide) (by decide) fun p member => ?_
    have held := holds_of_mem_shown member
    simp only [Holds, image, width_ofFn, height_ofFn, inner, Point.distance] at held ⊢
    omega

end IsoScene.Raster
