import IsoScene.Proofs.Effect.Histogram
import IsoScene.Proofs.Raster.Cells
import Mathlib.Algebra.BigOperators.Group.List.Lemmas
import Mathlib.Algebra.GroupWithZero.Nat
import Std.Data.HashMap.Lemmas

/-! # The histogram as a ranking

An image has one ranking of its visible colours: each of them stands there once with the number of
its cells, none before one that is more frequent, and of two that are as frequent the one that is
met first by someone who reads the rows from above (`IsRanking.unique`). The histogram is this
ranking (`isRanking_histogram`).

To count, it is enough to look up the slot of each colour in an index. Before and after every count
the index leads to the slots that there are, and to no others (`IsConsistent.exists_count`).
-/

namespace IsoScene

/-! ## Counting in a list -/

namespace Raster

theorem countColor_of_new {c : Rgba} {counts : List (Rgba × Nat)}
    (new : ∀ (slot n : Nat), counts[slot]? ≠ some (c, n)) :
    countColor c counts = counts ++ [(c, 1)] := by
  induction counts with
  | nil => rfl
  | cons entry counts ih =>
    obtain ⟨d, n⟩ := entry
    have other : d ≠ c := fun same => new 0 n (same ▸ rfl)
    rw [countColor, if_neg other, ih fun slot m => new (slot + 1) m, List.cons_append]

theorem countColor_of_slot {c : Rgba} {counts : List (Rgba × Nat)} {slot n : Nat}
    (found : counts[slot]? = some (c, n))
    (only : ∀ (other m : Nat), counts[other]? = some (c, m) → other = slot) :
    countColor c counts = counts.set slot (c, n + 1) := by
  induction counts generalizing slot with
  | nil => simp at found
  | cons entry counts ih =>
    obtain ⟨d, m⟩ := entry
    cases slot with
    | zero =>
      obtain ⟨rfl, rfl⟩ : d = c ∧ m = n := by simpa using found
      rw [countColor, if_pos rfl, List.set_cons_zero]
    | succ slot =>
      have other : d ≠ c := fun same => by simpa using only 0 m (same ▸ rfl)
      rw [countColor, if_neg other, List.set_cons_succ]
      exact congrArg _ (ih found fun other m there => by simpa using only (other + 1) m there)

end Raster

/-! ## Counting through an index -/

/-- Counts of colours in the order in which they are met, and for each colour the slot in which it
is counted. -/
structure Slots where
  index : Std.HashMap Rgba Nat
  counts : List (Rgba × Nat)

namespace Slots

def empty : Slots := ⟨∅, []⟩

/-- Counts one more occurrence. There is no result if the index leads to no slot. -/
def count? (slots : Slots) (c : Rgba) : Option Slots :=
  match slots.index[c]? with
  | none => some ⟨slots.index.insert c slots.counts.length, slots.counts ++ [(c, 1)]⟩
  | some slot =>
    match slots.counts[slot]? with
    | none => none
    | some (d, n) => some ⟨slots.index, slots.counts.set slot (d, n + 1)⟩

def countAll? (slots : Slots) : List Rgba → Option Slots
  | [] => some slots
  | c :: colors => (slots.count? c).bind (·.countAll? colors)

/-- The index leads each colour that has been met to its own slot, and no other colour anywhere. -/
def IsConsistent (slots : Slots) : Prop :=
  ∀ (c : Rgba) (slot : Nat),
    slots.index[c]? = some slot ↔ ∃ n, slots.counts[slot]? = some (c, n)

theorem isConsistent_empty : empty.IsConsistent := by
  simp [IsConsistent, empty]

section
variable {slots : Slots} {c : Rgba} {slot n : Nat}

theorem IsConsistent.not_counted (consistent : slots.IsConsistent) (new : slots.index[c]? = none)
    (slot n : Nat) : slots.counts[slot]? ≠ some (c, n) := by
  intro found
  rw [(consistent c slot).mpr ⟨n, found⟩] at new
  cases new

theorem IsConsistent.append (consistent : slots.IsConsistent) (new : slots.index[c]? = none)
    (n : Nat) :
    IsConsistent ⟨slots.index.insert c slots.counts.length, slots.counts ++ [(c, n)]⟩ := by
  intro d slot
  rw [Std.HashMap.getElem?_insert, List.getElem?_append]
  by_cases same : c = d
  · -- The new colour is in the slot at the end, and in none before.
    subst same
    rw [if_pos BEq.rfl, Option.some.injEq]
    constructor
    · rintro rfl
      exact ⟨n, by simp⟩
    · rintro ⟨m, found⟩
      split at found
      · exact absurd found (consistent.not_counted new slot m)
      · have inside := (List.getElem?_eq_some_iff.mp found).1
        rw [List.length_singleton] at inside
        omega
  · rw [if_neg (mt eq_of_beq same), consistent d slot]
    refine exists_congr fun m => ?_
    split
    · rfl
    · next beyond =>
      rw [List.getElem?_eq_none (Nat.le_of_not_lt beyond), List.getElem?_singleton]
      split <;> simp [same]

theorem IsConsistent.set (consistent : slots.IsConsistent)
    (found : slots.counts[slot]? = some (c, n)) (m : Nat) :
    IsConsistent ⟨slots.index, slots.counts.set slot (c, m)⟩ := by
  intro d other
  rw [consistent d other, List.getElem?_set]
  split
  · next same =>
    subst same
    rw [found, if_pos (List.getElem?_eq_some_iff.mp found).1]
    simp
  · rfl

/-- A count in a consistent state finds its slot, changes what it should and keeps the state
consistent. -/
theorem IsConsistent.exists_count (consistent : slots.IsConsistent) (c : Rgba) :
    ∃ after, slots.count? c = some after ∧ after.IsConsistent ∧
      after.counts = Raster.countColor c slots.counts := by
  cases known : slots.index[c]? with
  | none =>
    have new := consistent.not_counted known
    refine ⟨_, ?_, consistent.append known 1, (Raster.countColor_of_new new).symm⟩
    rw [count?, known]
  | some slot =>
    obtain ⟨n, found⟩ := (consistent c slot).mp known
    -- The index leads to one slot only.
    have only (other m : Nat) (there : slots.counts[other]? = some (c, m)) : other = slot := by
      have place := (consistent c other).mpr ⟨m, there⟩
      rw [known, Option.some.injEq] at place
      exact place.symm
    refine ⟨_, ?_, consistent.set found (n + 1), (Raster.countColor_of_slot found only).symm⟩
    simp only [count?, known, found]

theorem IsConsistent.exists_countAll (consistent : slots.IsConsistent) (colors : List Rgba) :
    ∃ after, slots.countAll? colors = some after ∧ after.IsConsistent ∧
      after.counts = colors.foldl (fun counts c => Raster.countColor c counts) slots.counts := by
  induction colors generalizing slots with
  | nil => exact ⟨slots, rfl, consistent, rfl⟩
  | cons c colors ih =>
    obtain ⟨next, counted, stays, one⟩ := consistent.exists_count c
    obtain ⟨after, run, holds, all⟩ := ih stays
    refine ⟨after, ?_, holds, ?_⟩
    · rw [countAll?, counted, Option.bind_some, run]
    · rw [all, one, List.foldl_cons]

end

end Slots

namespace Raster

/-! ## First occurrences -/

/-- For someone who reads the rows from above, and each from the left, a colour occurs before
another one does. -/
def MeetsFirst (image : Image) (c d : Rgba) : Prop :=
  ∃ x y, image.get? x y = some c ∧ ∀ i j, image.get? i j = some d → y < j ∨ y = j ∧ x < i

section
variable {image : Image} {c d : Rgba}

theorem MeetsFirst.not_converse (first : image.MeetsFirst c d) : ¬ image.MeetsFirst d c := by
  rintro ⟨i, j, there, later⟩
  obtain ⟨x, y, here, after⟩ := first
  have forth := after i j there
  have back := later x y here
  omega

theorem idxOf_le_of_get? {x y : Nat} (found : image.get? x y = some c) :
    image.toList.idxOf c ≤ y * image.width + x := by
  rw [get?] at found
  split at found
  · by_contra before
    obtain ⟨inside, cell⟩ := Array.getElem?_eq_some_iff.mp found
    have other := List.not_of_lt_findIdx (Nat.lt_of_not_le before)
    exact ne_of_beq_false other cell
  · cases found

theorem meetsFirst_of_idxOf_lt (member : c ∈ image.toList)
    (earlier : image.toList.idxOf c < image.toList.idxOf d) : image.MeetsFirst c d := by
  refine ⟨_, _, get?_of_getElem?_toList (List.getElem?_idxOf member), fun i j there => ?_⟩
  have hi := (isSome_get?_iff.mp (Option.isSome_of_eq_some there)).1
  have parts := Nat.div_add_mod' (image.toList.idxOf c) image.width
  have before := Nat.lt_of_lt_of_le earlier (idxOf_le_of_get? there)
  generalize image.toList.idxOf c / image.width = y,
    image.toList.idxOf c % image.width = x at parts ⊢
  by_contra behind
  obtain above | ⟨rfl, left⟩ : j < y ∨ j = y ∧ i ≤ x := by omega
  · -- All of a row comes before the rows below it.
    have earlierRow := cell_lt hi above
    rw [Nat.mul_comm image.width] at earlierRow
    omega
  · omega

theorem idxOf_lt_of_filter {colors : List Rgba} {keep : Rgba → Bool} (keptFirst : keep c)
    (keptSecond : keep d)
    (earlier : (colors.filter keep).idxOf c < (colors.filter keep).idxOf d) :
    colors.idxOf c < colors.idxOf d := by
  induction colors with
  | nil => simp at earlier
  | cons e colors ih =>
    rw [List.idxOf_cons, List.idxOf_cons]
    by_cases stays : keep e
    · rw [List.filter_cons_of_pos stays, List.idxOf_cons, List.idxOf_cons] at earlier
      cases first : e == c <;> cases second : e == d <;>
        simp only [first, second, cond_true, cond_false] at earlier ⊢ <;> omega
    · have first : (e == c) = false := beq_false_of_ne fun same => stays (same ▸ keptFirst)
      have second : (e == d) = false := beq_false_of_ne fun same => stays (same ▸ keptSecond)
      rw [List.filter_cons_of_neg stays] at earlier
      rw [first, second]
      exact Nat.succ_lt_succ (ih earlier)

end

/-! ## Rankings -/

/-- The visible colours with the numbers of their cells. None of them stands before one that is more
frequent, and of two that are as frequent the one that is met first stands first. -/
structure IsRanking (image : Image) (ranking : List (Rgba × Nat)) : Prop where
  distinct : (ranking.map (·.1)).Nodup
  counted : ∀ c n, (c, n) ∈ ranking ↔
    (c.isVisible ∧ ∃ x y, image.get? x y = some c) ∧ n = image.toList.count c
  ordered : ranking.Pairwise fun a b => b.2 ≤ a.2
  ties : ranking.Pairwise fun a b => a.2 = b.2 → image.MeetsFirst a.1 b.1

section
variable {image : Image} {c : Rgba}

theorem mem_visible_iff :
    c ∈ image.visible ↔ c.isVisible ∧ ∃ x y, image.get? x y = some c := by
  rw [visible, List.mem_filter, mem_toList_iff, and_comm]

theorem isRanking_histogram (image : Image) : image.IsRanking image.histogram := by
  have ranked := pairwise_histogram image
  constructor
  · refine List.pairwise_map.mpr (ranked.imp fun higher same => ?_)
    rw [same] at higher
    obtain more | ⟨-, earlier⟩ := higher
    · exact Nat.lt_irrefl _ more
    · exact Nat.lt_irrefl _ earlier
  · intro c n
    rw [mem_histogram_iff, mem_visible_iff]
    refine and_congr_right fun occurs => ?_
    rw [visible, List.count_filter occurs.1]
  · refine ranked.imp_of_mem fun first second higher => ?_
    rw [(mem_histogram_iff.mp first).2, (mem_histogram_iff.mp second).2]
    obtain more | ⟨tie, -⟩ := higher
    · exact Nat.le_of_lt more
    · exact Nat.le_of_eq tie.symm
  · refine ranked.imp_of_mem fun {a b} first second higher tie => ?_
    have member := List.mem_filter.mp (mem_histogram_iff.mp first).1
    have other := List.mem_filter.mp (mem_histogram_iff.mp second).1
    rw [(mem_histogram_iff.mp first).2, (mem_histogram_iff.mp second).2] at tie
    obtain more | ⟨-, earlier⟩ := higher
    · omega
    · exact meetsFirst_of_idxOf_lt member.1 (idxOf_lt_of_filter member.2 other.2 earlier)

/-- There is one ranking of an image. -/
theorem IsRanking.unique {ranking other : List (Rgba × Nat)} (first : image.IsRanking ranking)
    (second : image.IsRanking other) : ranking = other := by
  have same : ranking.Perm other := by
    refine (List.perm_ext_iff_of_nodup first.distinct.of_map second.distinct.of_map).mpr ?_
    rintro ⟨c, n⟩
    rw [first.counted, second.counted]
  refine List.Perm.eq_of_pairwise ?_ (first.ordered.and first.ties)
    (second.ordered.and second.ties) same
  rintro a b - - ⟨less, before⟩ ⟨more, after⟩
  -- Entries that stand in both orders have the same count, and each colour is met before the other.
  have tie : a.2 = b.2 := Nat.le_antisymm more less
  exact absurd (after tie.symm) (before tie).not_converse

theorem sum_counts (image : Image) :
    (image.histogram.map (·.2)).sum = image.toList.countP Rgba.isVisible := by
  have listed : image.histogram.Perm (tally image.visible) := List.mergeSort_perm _ _
  have colors : image.visible.eraseDups.Perm image.visible.dedup := by
    refine (List.perm_ext_iff_of_nodup (nodup_eraseDups _) (List.nodup_dedup _)).mpr fun c => ?_
    rw [List.mem_eraseDups, List.mem_dedup]
  have counts : (tally image.visible).map (·.2) =
      image.visible.eraseDups.map image.visible.count := by
    rw [tally_eq, List.map_map]
    rfl
  calc (image.histogram.map (·.2)).sum
      = ((tally image.visible).map (·.2)).sum := (listed.map _).sum_nat
    _ = (image.visible.dedup.map image.visible.count).sum := by
      rw [counts, (colors.map _).sum_nat]
    _ = image.visible.length := List.sum_map_count_dedup_eq_length _
    _ = image.toList.countP Rgba.isVisible := List.countP_eq_length_filter.symm

end

/-- Entries with greater counts come first. -/
def byCount (a b : Rgba × Nat) : Ordering := compareOn Prod.snd b a

instance : Std.TransCmp byCount :=
  inferInstanceAs (Std.TransCmp fun a b : Rgba × Nat => compareOn Prod.snd b a)

theorem isLE_byCount (a b : Rgba × Nat) : (byCount a b).isLE = decide (b.2 ≤ a.2) := by
  rw [Bool.eq_iff_iff, decide_eq_true_iff]
  exact Nat.isLE_compare

/-- For every image the histogram is the ranking of the visible colours, and the only one. Its
counts add up to the number of visible cells. Counting through an index never misses a slot, and
the histogram is the stable sort of what it counts. -/
theorem histogram_eq_ranking (image : Image) :
    (∀ ranking, image.IsRanking ranking ↔ ranking = image.histogram) ∧
      (image.histogram.map (·.2)).sum = image.toList.countP Rgba.isVisible ∧
      ∃ slots, Slots.empty.countAll? image.visible = some slots ∧ slots.IsConsistent ∧
        IsStableSort byCount slots.counts image.histogram := by
  refine ⟨fun ranking => ?_, sum_counts image, ?_⟩
  · constructor
    · exact fun ranked => ranked.unique (isRanking_histogram image)
    · rintro rfl
      exact isRanking_histogram image
  · obtain ⟨slots, run, consistent, counts⟩ :=
      Slots.isConsistent_empty.exists_countAll image.visible
    refine ⟨slots, run, consistent, isStableSort_iff.mpr ?_⟩
    simp only [isLE_byCount, counts]
    rfl

/-- Of two colours with one cell each, the one in the upper row comes first. -/
example :
    let upper : Rgba := ⟨9, 9, 9, 1⟩
    let lower : Rgba := ⟨1, 1, 1, 255⟩
    let image : Image := ofFn 2 2 fun x y =>
      if x = y then Rgba.transparent else if y = 0 then upper else lower
    image.histogram = [(upper, 1), (lower, 1)] := by
  cbv

end Raster

end IsoScene
