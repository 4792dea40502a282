import IsoScene.Proofs.Binary64.Numbers
import IsoScene.Proofs.StableSort
import IsoScene.Scene.Order

/-! # Draw order

Draw order compares three coordinates one after another, each by its position among all bit patterns.
Positions are whole numbers, and each pattern has its own. So draw order is a total preorder for any
coordinates, also for zeros with a sign and for what is not a number, and it ties tiles only if the
three coordinates are equal bit for bit (`drawOrder_eq_eq_iff`). Sorting by it leaves one list only
(`stable_drawing_order`).
-/

namespace IsoScene.Tile

theorem drawOrder_eq_compareLex :
    drawOrder = compareLex (compareOn fun tile => tile.diagonal.key)
      (compareLex (compareOn fun tile => tile.position.z.key)
        (compareOn fun tile => tile.position.p.key)) := rfl

instance : Std.TransCmp drawOrder := by
  rw [drawOrder_eq_compareLex]
  infer_instance

theorem drawOrder_eq_eq_iff {a b : Tile} :
    a.drawOrder b = .eq ↔
      a.diagonal = b.diagonal ∧ a.position.z = b.position.z ∧ a.position.p = b.position.p := by
  simp only [drawOrder, Ordering.then_eq_eq, Std.compare_eq_iff_eq,
    Binary64.key_injective.eq_iff]

theorem isStableSort_sort (tiles : List Tile) : IsStableSort drawOrder tiles (sort tiles) :=
  isStableSort_mergeSort tiles

theorem sort_sort (tiles : List Tile) : sort (sort tiles) = sort tiles :=
  List.mergeSort_of_pairwise (isStableSort_sort tiles).ordered

/-- Draw order is a total preorder on tiles with any coordinates. Two tiles are tied if their
diagonals, heights and pixel layers are the same patterns. Sorting gives the only list that has the
tiles in draw order and keeps the order of those that are tied. -/
theorem stable_drawing_order :
    (∀ a : Tile, a.drawOrder a = .eq) ∧
      (∀ a b : Tile, b.drawOrder a = (a.drawOrder b).swap) ∧
      (∀ a b : Tile, (a.drawOrder b).isLE ∨ (b.drawOrder a).isLE) ∧
      (∀ a b c : Tile, (a.drawOrder b).isLE → (b.drawOrder c).isLE → (a.drawOrder c).isLE) ∧
      (∀ a b : Tile, a.drawOrder b = .eq ↔
        (a.position.y - a.position.x).bits = (b.position.y - b.position.x).bits ∧
          a.position.z.bits = b.position.z.bits ∧ a.position.p.bits = b.position.p.bits) ∧
      (∀ tiles sorted : List Tile, IsStableSort drawOrder tiles sorted ↔ sorted = sort tiles) ∧
      ∀ tiles : List Tile, sort (sort tiles) = sort tiles := by
  refine ⟨fun a => ?_, fun a b => ?_, isLE_total, fun a b c => ?_, fun a b => ?_, ?_, sort_sort⟩
  · exact Std.ReflCmp.compare_self
  · exact Std.OrientedCmp.eq_swap
  · exact Std.TransCmp.isLE_trans
  · rw [drawOrder_eq_eq_iff, Binary64.bits_inj, Binary64.bits_inj, Binary64.bits_inj]
    rfl
  · exact fun tiles sorted => isStableSort_iff

/-- A negative pattern that is not a number, negative zero and zero are three heights, one above the
other. Tiles of the same height keep their order. -/
theorem stable_drawing_order_unusual :
    let tile (name : String) (height : Binary64) : Tile :=
      .new name ⟨.zero false, .zero false, height, .zero false⟩ [] .text
    let lowest := tile "lowest" .noValue
    let first := tile "first" (.zero true)
    let second := tile "second" (.zero true)
    let highest := tile "highest" (.zero false)
    lowest.drawOrder first = .lt ∧ first.drawOrder highest = .lt ∧
      (lowest.drawOrder highest).isLE ∧
      IsStableSort drawOrder [highest, first, second, lowest] [lowest, first, second, highest] := by
  intro tile lowest first second highest
  obtain ⟨-, -, -, trans, -, sorts, -⟩ := stable_drawing_order
  refine ⟨by decide +kernel, by decide +kernel, ?_, ?_⟩
  · exact trans lowest first highest (by decide +kernel) (by decide +kernel)
  · have compared : highest.drawsBefore first = false ∧ second.drawsBefore lowest = false ∧
        first.drawsBefore lowest = false ∧ first.drawsBefore second ∧
        highest.drawsBefore second = false := by
      decide +kernel
    refine (sorts _ _).mpr ?_
    simp [sort, List.mergeSort, compared]

end IsoScene.Tile
