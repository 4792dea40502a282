import IsoScene.Proofs.Raster.Cells
import IsoScene.Raster.Edge
import Mathlib.Algebra.Order.BigOperators.Group.List
import Mathlib.Algebra.Order.Ring.Int
import Mathlib.Order.Lattice.Nat

/-! # Rings around a shape

The edge kernel, applied again and again, sends out rings from a shape: after each pass a ring
stands at every distance that is not greater than the number of passes and has its parity.

What a pass does inside the shape does not matter, save at the places that touch the outside. They
alternate between full and empty like a ring at distance zero, and this is all that the ring next to
them depends on (`HasRings.edges`). Distances are counted in steps along the axes.

* `IsDistanceTo` — the distance of a place to the nearest place of a shape.
* `exists_lit_of_edgesTimes` — light goes one step with each pass, on any channel.
* `HasRings` — the rings after some passes.
-/

namespace IsoScene

/-! ## Distances -/

/-- A column and a row anywhere on the plane. -/
abbrev Point := Int × Int

namespace Point

/-- The number of steps along the axes from one place to another. -/
def distance (p q : Point) : Nat := (p.1 - q.1).natAbs + (p.2 - q.2).natAbs

/-- The places one step away: above, on the left, on the right and below. -/
def around (p : Point) : List Point :=
  [(p.1, p.2 - 1), (p.1 - 1, p.2), (p.1 + 1, p.2), (p.1, p.2 + 1)]

theorem distance_eq_zero_iff {p q : Point} : p.distance q = 0 ↔ p = q := by
  simp only [distance, Prod.ext_iff]
  omega

theorem distance_comm (p q : Point) : p.distance q = q.distance p := by
  simp only [distance]
  omega

theorem mem_around_iff {p q : Point} : q ∈ p.around ↔ p.distance q = 1 := by
  simp only [around, List.mem_cons, List.not_mem_nil, or_false, Prod.ext_iff, distance]
  omega

theorem mem_around_comm {p q : Point} : q ∈ p.around ↔ p ∈ q.around := by
  rw [mem_around_iff, mem_around_iff, distance_comm]

theorem distance_of_around {p q : Point} (next : q ∈ p.around) (r : Point) :
    p.distance r ≤ q.distance r + 1 ∧ q.distance r ≤ p.distance r + 1 := by
  rw [mem_around_iff] at next
  simp only [distance] at next ⊢
  omega

/-- Some step leads nearer to another place. -/
theorem exists_nearer {p q : Point} {d : Nat} (far : p.distance q = d + 1) :
    ∃ r ∈ p.around, r.distance q = d := by
  simp only [distance] at far ⊢
  by_cases column : p.1 = q.1
  · by_cases above : q.2 < p.2
    · exact ⟨(p.1, p.2 - 1), by simp [around], by dsimp only; omega⟩
    · exact ⟨(p.1, p.2 + 1), by simp [around], by dsimp only; omega⟩
  · by_cases left : q.1 < p.1
    · exact ⟨(p.1 - 1, p.2), by simp [around], by dsimp only; omega⟩
    · exact ⟨(p.1 + 1, p.2), by simp [around], by dsimp only; omega⟩

end Point

/-- The distance of a place to the nearest place of a shape. -/
def IsDistanceTo (shape : Set Point) (p : Point) (d : Nat) : Prop :=
  IsLeast (p.distance '' shape) d

namespace IsDistanceTo

variable {shape : Set Point} {p q : Point} {d e : Nat}

theorem zero_iff : IsDistanceTo shape p 0 ↔ p ∈ shape := by
  constructor
  · rintro ⟨⟨q, member, here⟩, -⟩
    rwa [Point.distance_eq_zero_iff.mp here]
  · exact fun member => ⟨⟨p, member, Point.distance_eq_zero_iff.mpr rfl⟩, fun _ _ => Nat.zero_le _⟩

theorem exists_of_mem (member : q ∈ shape) (p : Point) : ∃ d, IsDistanceTo shape p d := by
  have some : (p.distance '' shape).Nonempty := ⟨_, q, member, rfl⟩
  exact ⟨sInf (p.distance '' shape), Nat.sInf_mem some, fun _ found => Nat.sInf_le found⟩

theorem le_succ_of_around (here : IsDistanceTo shape p d) (there : IsDistanceTo shape q e)
    (next : q ∈ p.around) : d ≤ e + 1 ∧ e ≤ d + 1 := by
  obtain ⟨⟨r, member, rfl⟩, least⟩ := here
  obtain ⟨⟨s, memberOther, rfl⟩, leastOther⟩ := there
  have toOther := least ⟨s, memberOther, rfl⟩
  have fromOther := leastOther ⟨r, member, rfl⟩
  have stepToOther := Point.distance_of_around next s
  have stepFromOther := Point.distance_of_around next r
  omega

theorem exists_nearer (here : IsDistanceTo shape p (d + 1)) :
    ∃ q ∈ p.around, IsDistanceTo shape q d := by
  obtain ⟨⟨r, member, far⟩, least⟩ := here
  obtain ⟨q, next, near⟩ := Point.exists_nearer far
  refine ⟨q, next, ⟨r, member, near⟩, ?_⟩
  rintro _ ⟨s, memberOther, rfl⟩
  have farther := least ⟨s, memberOther, rfl⟩
  have step := Point.distance_of_around next s
  omega

theorem eq_one_of_touches (touched : q ∈ shape) (next : q ∈ p.around) (outside : p ∉ shape) :
    IsDistanceTo shape p 1 := by
  obtain ⟨d, here⟩ := exists_of_mem touched p
  have bound := (here.le_succ_of_around (zero_iff.mpr touched) next).1
  obtain rfl | rfl : d = 0 ∨ d = 1 := by omega
  · exact absurd (zero_iff.mp here) outside
  · exact here

end IsDistanceTo

/-! ## One pass -/

namespace Raster

/-- The level of a channel at a place of the plane. -/
def light (channel : Raster UInt8) (p : Point) : Int := channel.level p.1 p.2

/-- The place lies on the raster. -/
def Holds {α : Type} (r : Raster α) (p : Point) : Prop :=
  (0 ≤ p.1 ∧ p.1 < r.width) ∧ 0 ≤ p.2 ∧ p.2 < r.height

theorem sample_of_not_holds {α : Type} [Inhabited α] {r : Raster α} {p : Point}
    (beyond : ¬ r.Holds p) : r.sample p.1 p.2 = default := by
  have outside : r.at? p.1 p.2 = none := by
    rw [at?_eq]
    simp only [Holds] at beyond
    split
    · rw [if_neg (by omega)]
    · rfl
  rw [sample_eq_at?, outside]
  rfl

theorem sample_ofFn {α : Type} [Inhabited α] (w h : Nat) (f : Nat → Nat → α) (x y : Int) :
    (ofFn w h f).sample x y =
      if (0 ≤ x ∧ x < w) ∧ 0 ≤ y ∧ y < h then f x.toNat y.toNat else default := by
  rw [sample_eq_at?, at?_eq, width_ofFn, height_ofFn]
  by_cases inside : (0 ≤ x ∧ x < w) ∧ 0 ≤ y ∧ y < h
  · rw [if_pos inside, if_pos inside.2, if_pos inside.1, get?_ofFn _ (by omega) (by omega)]
    rfl
  · rw [if_neg inside]
    split
    · rw [if_neg (by tauto)]
      rfl
    · rfl

variable {channel : Raster UInt8} {p q : Point}

theorem light_bounds (channel : Raster UInt8) (p : Point) :
    0 ≤ channel.light p ∧ channel.light p ≤ 255 := by
  have byte := (channel.sample p.1 p.2).toNat_lt
  simp only [light, level]
  omega

theorem toNat_clampByte (n : Int) : ((clampByte n).toNat : Int) = max 0 (min n 255) := by
  have byte : (clampByte n).toNat = min n.toNat 255 :=
    UInt8.toNat_ofNat_of_lt' (show min n.toNat 255 < 256 by omega)
  rw [byte]
  omega

theorem edgeSum_eq (channel : Raster UInt8) (p : Point) :
    channel.edgeSum p.1 p.2 = (p.around.map channel.light).sum - 4 * channel.light p := by
  simp only [edgeSum, light, Point.around, List.map_cons, List.map_nil, List.sum_cons,
    List.sum_nil]
  omega

theorem light_edges (held : channel.Holds p) :
    channel.edges.light p =
      max 0 (min ((p.around.map channel.light).sum - 4 * channel.light p) 255) := by
  have placed : channel.edges.sample p.1 p.2 = clampByte (channel.edgeSum p.1 p.2) := by
    rw [edges, sample_ofFn, Int.toNat_of_nonneg held.1.1, Int.toNat_of_nonneg held.2.1]
    exact if_pos held
  rw [light, level, placed, toNat_clampByte, edgeSum_eq]

theorem light_of_not_holds (beyond : ¬ channel.Holds p) : channel.light p = 0 := by
  rw [light, level, sample_of_not_holds beyond]
  rfl

theorem holds_edges : channel.edges.Holds p ↔ channel.Holds p := Iff.rfl

theorem holds_edgesTimes {passes : Nat} :
    (channel.edgesTimes passes).Holds p ↔ channel.Holds p := by
  induction passes with
  | zero => rfl
  | succ passes ih => exact ih

/-! ## Many passes, on any channel -/

theorem exists_lit_of_edges (lit : channel.edges.light p ≠ 0) :
    ∃ q ∈ p.around, channel.light q ≠ 0 := by
  by_contra none
  have held : channel.Holds p := by
    by_contra beyond
    exact lit (light_of_not_holds (holds_edges.not.mpr beyond))
  have dark : (p.around.map channel.light).sum = 0 := by
    refine List.sum_eq_zero fun level member => ?_
    obtain ⟨q, next, rfl⟩ := List.mem_map.mp member
    exact not_not.mp fun lit => none ⟨q, next, lit⟩
  have own := (light_bounds channel p).1
  rw [light_edges held, dark] at lit
  omega

/-- Light goes at most one step with each pass. -/
theorem exists_lit_of_edgesTimes {passes : Nat} (lit : (channel.edgesTimes passes).light p ≠ 0) :
    ∃ q, channel.light q ≠ 0 ∧ p.distance q ≤ passes := by
  induction passes generalizing p with
  | zero => exact ⟨p, lit, by rw [Point.distance_eq_zero_iff.mpr rfl]⟩
  | succ passes ih =>
    obtain ⟨r, next, litBefore⟩ := exists_lit_of_edges lit
    obtain ⟨q, litFirst, near⟩ := ih litBefore
    have step := Point.distance_of_around next q
    exact ⟨q, litFirst, by omega⟩

/-! ## Many passes, on a channel of full and empty cells -/

theorem light_edges_of_full (full : channel.light p = 255) : channel.edges.light p = 0 := by
  by_cases held : channel.Holds p
  · have bounds := fun q => (light_bounds channel q).2
    have above := bounds (p.1, p.2 - 1)
    have left := bounds (p.1 - 1, p.2)
    have right := bounds (p.1 + 1, p.2)
    have below := bounds (p.1, p.2 + 1)
    rw [light_edges held, full]
    simp only [Point.around, List.map_cons, List.map_nil, List.sum_cons, List.sum_nil]
    omega
  · exact light_of_not_holds (holds_edges.not.mpr held)

theorem light_edges_of_touches (held : channel.Holds p) (empty : channel.light p = 0)
    (next : q ∈ p.around) (full : channel.light q = 255) : channel.edges.light p = 255 := by
  have enough : 255 ≤ (p.around.map channel.light).sum := by
    rw [← full]
    refine List.single_le_sum ?_ _ (List.mem_map_of_mem next)
    intro level member
    obtain ⟨r, -, rfl⟩ := List.mem_map.mp member
    exact (light_bounds channel r).1
  rw [light_edges held, empty]
  omega

/-- The level of a ring after some passes. -/
def ringLight (passes d : Nat) : Int := if d ≤ passes ∧ d % 2 = passes % 2 then 255 else 0

/-- Rings stand around a shape, and the places of the shape that touch the outside alternate with
them. -/
structure HasRings (channel : Raster UInt8) (shape : Set Point) (passes : Nat) : Prop where
  outside : ∀ p d, IsDistanceTo shape p d → d ≠ 0 → channel.light p = ringLight passes d
  border : ∀ p ∈ shape, ∀ q ∈ p.around, q ∉ shape → channel.light p = ringLight passes 0

section
variable {shape : Set Point} {passes : Nat}

/-- The place one step nearer is on a ring, or it is in the shape and touches the outside. -/
theorem HasRings.light_nearer {d : Nat} (rings : channel.HasRings shape passes)
    (here : IsDistanceTo shape p (d + 1)) (next : q ∈ p.around) (near : IsDistanceTo shape q d) :
    channel.light q = ringLight passes d := by
  cases d with
  | succ d => exact rings.outside q (d + 1) near (by simp)
  | zero =>
    refine rings.border q (IsDistanceTo.zero_iff.mp near) p (Point.mem_around_comm.mp next) ?_
    rw [← IsDistanceTo.zero_iff]
    exact fun inside => absurd (here.2 inside.1) (by simp)

theorem HasRings.edges (rings : channel.HasRings shape passes)
    (room : ∀ p, ∀ q ∈ shape, p.distance q ≤ passes + 1 → channel.Holds p) :
    channel.edges.HasRings shape (passes + 1) where
  outside := by
    intro p d here far
    obtain ⟨d, rfl⟩ := Nat.exists_eq_succ_of_ne_zero far
    have own := rings.outside p (d + 1) here far
    by_cases reached : d ≤ passes
    · by_cases parity : d % 2 = passes % 2
      · -- The ring one step nearer lights this place.
        have held : channel.Holds p := by
          obtain ⟨⟨q, member, distance⟩, -⟩ := here
          exact room p q member (by omega)
        obtain ⟨q, next, near⟩ := here.exists_nearer
        have nearer : channel.light q = ringLight passes d := rings.light_nearer here next near
        rw [ringLight, if_neg (by omega)] at own
        rw [ringLight, if_pos ⟨reached, parity⟩] at nearer
        rw [light_edges_of_touches held own next nearer, ringLight, if_pos (by omega)]
      · rw [ringLight, if_pos (by omega)] at own
        rw [light_edges_of_full own, ringLight, if_neg (by omega)]
    · -- All the places around are too far away for a ring.
      rw [ringLight, if_neg (by omega)]
      by_contra lit
      obtain ⟨q, next, litBefore⟩ := exists_lit_of_edges lit
      obtain ⟨r, member, -⟩ := here.1
      obtain ⟨e, there⟩ := IsDistanceTo.exists_of_mem member q
      have bound := here.le_succ_of_around there next
      rw [rings.outside q e there (by omega), ringLight, if_neg (by omega)] at litBefore
      exact litBefore rfl
  border := by
    intro p member q next outside
    have own := rings.border p member q next outside
    by_cases even : passes % 2 = 0
    · rw [ringLight, if_pos (by omega)] at own
      rw [light_edges_of_full own, ringLight, if_neg (by omega)]
    · have held : channel.Holds p :=
        room p p member (by rw [Point.distance_eq_zero_iff.mpr rfl]; omega)
      have there := IsDistanceTo.eq_one_of_touches member (Point.mem_around_comm.mp next) outside
      have ring := rings.outside q 1 there (by decide)
      rw [ringLight, if_neg (by omega)] at own
      rw [ringLight, if_pos (by omega)] at ring
      rw [light_edges_of_touches held own next ring, ringLight, if_pos (by omega)]

/-- The rings after some passes, as far as there is room for them. -/
theorem HasRings.edgesTimes (start : channel.HasRings shape 0) {most : Nat}
    (room : ∀ p, ∀ q ∈ shape, p.distance q ≤ most → channel.Holds p) (few : passes ≤ most) :
    (channel.edgesTimes passes).HasRings shape passes := by
  induction passes with
  | zero => exact start
  | succ passes ih =>
    refine (ih (by omega)).edges fun p q member near => ?_
    exact holds_edgesTimes.mpr (room p q member (by omega))

end

end Raster

end IsoScene
