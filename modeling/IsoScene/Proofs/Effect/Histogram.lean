import IsoScene.Effect.Apply
import IsoScene.Proofs.StableSort
import Mathlib.Data.List.Induction

/-! # The ranking of visible colours

Colours are counted one after another, in the order in which they are met (`tally_eq`), and then
sorted by their counts with a sort that is stable. So a colour stands in the histogram before
another one if it is more frequent, or as frequent and met earlier (`pairwise_histogram`). The first
of them is the dominant colour of the image (`isDominant_dominant`).
-/

namespace IsoScene.Raster

/-! ## Counting -/

/-- The colours with their counts, in the order in which they are met. -/
def tally (colors : List Rgba) : List (Rgba × Nat) :=
  colors.foldl (fun counts c => countColor c counts) []

theorem eraseDups_concat (colors : List Rgba) (c : Rgba) :
    (colors ++ [c]).eraseDups =
      if c ∈ colors then colors.eraseDups else colors.eraseDups ++ [c] := by
  rw [List.eraseDups_append]
  split
  · next met => simp [List.removeAll, met]
  · next new => simp [List.removeAll, new, List.eraseDups_cons]

/-- The colours that occur stand in the order of their first occurrences. -/
theorem pairwise_eraseDups (colors : List Rgba) :
    colors.eraseDups.Pairwise fun c d => colors.idxOf c < colors.idxOf d := by
  induction colors using List.reverseRecOn with
  | nil => exact List.Pairwise.nil
  | append_singleton colors c ih =>
    have before : colors.eraseDups.Pairwise fun d e =>
        (colors ++ [c]).idxOf d < (colors ++ [c]).idxOf e := by
      refine ih.imp_of_mem fun first second earlier => ?_
      rwa [List.idxOf_append_of_mem (List.mem_eraseDups.mp first),
        List.idxOf_append_of_mem (List.mem_eraseDups.mp second)]
    rw [eraseDups_concat]
    split
    · exact before
    · next new =>
      refine List.pairwise_append.mpr ⟨before, List.pairwise_singleton .., ?_⟩
      intro d met e last
      obtain rfl := List.mem_singleton.mp last
      have member := List.mem_eraseDups.mp met
      rw [List.idxOf_append_of_mem member, List.idxOf_append_of_notMem new]
      exact Nat.lt_add_right _ (List.idxOf_lt_length_of_mem member)

theorem nodup_eraseDups (colors : List Rgba) : colors.eraseDups.Nodup :=
  (pairwise_eraseDups colors).imp fun earlier same => by simp [same] at earlier

/-- One more occurrence changes the count of its own colour. -/
theorem countColor_map {colors : List Rgba} (distinct : colors.Nodup) (count : Rgba → Nat)
    (c : Rgba) :
    countColor c (colors.map fun d => (d, count d)) =
      if c ∈ colors then colors.map fun d => (d, if d = c then count d + 1 else count d)
      else colors.map (fun d => (d, count d)) ++ [(c, 1)] := by
  induction colors with
  | nil => rfl
  | cons d colors ih =>
    obtain ⟨new, distinct⟩ := List.nodup_cons.mp distinct
    rw [List.map_cons, countColor]
    by_cases same : d = c
    · subst same
      have others : colors.map (fun e => (e, count e)) =
          colors.map fun e => (e, if e = d then count e + 1 else count e) := by
        refine List.map_congr_left fun e member => ?_
        rw [if_neg (fun same : e = d => new (same ▸ member))]
      rw [if_pos rfl, if_pos List.mem_cons_self, List.map_cons, if_pos rfl, others]
    · rw [if_neg same, ih distinct]
      simp only [List.mem_cons, Ne.symm same, false_or]
      split
      · rw [List.map_cons, if_neg same]
      · rfl

theorem tally_eq (colors : List Rgba) :
    tally colors = colors.eraseDups.map fun c => (c, colors.count c) := by
  induction colors using List.reverseRecOn with
  | nil => rfl
  | append_singleton colors c ih =>
    have step : tally (colors ++ [c]) = countColor c (tally colors) := by simp [tally]
    rw [step, ih, countColor_map (nodup_eraseDups colors), eraseDups_concat]
    simp only [List.mem_eraseDups]
    split
    · refine List.map_congr_left fun d _ => ?_
      by_cases same : d = c
      · simp [same]
      · simp [same, Ne.symm same]
    · next new =>
      rw [List.map_append, List.map_singleton]
      congr 1
      · refine List.map_congr_left fun d met => ?_
        have other : c ≠ d := fun same => new (same ▸ List.mem_eraseDups.mp met)
        simp [other]
      · simp [List.count_eq_zero_of_not_mem new]

/-! ## Sorting -/

/-- A colour ranks higher if it is more frequent, or as frequent and met earlier. -/
def Outranks (colors : List Rgba) (c d : Rgba) : Prop :=
  colors.count d < colors.count c ∨
    colors.count c = colors.count d ∧ colors.idxOf c < colors.idxOf d

theorem mem_histogram_iff {image : Image} {entry : Rgba × Nat} :
    entry ∈ image.histogram ↔
      entry.1 ∈ image.visible ∧ entry.2 = image.visible.count entry.1 := by
  have listed : image.histogram =
      (tally image.visible).mergeSort fun a b => b.2 ≤ a.2 := rfl
  rw [listed, List.mem_mergeSort, tally_eq, List.mem_map]
  constructor
  · rintro ⟨c, met, rfl⟩
    exact ⟨List.mem_eraseDups.mp met, rfl⟩
  · rintro ⟨met, counted⟩
    exact ⟨entry.1, List.mem_eraseDups.mpr met, Prod.ext rfl counted.symm⟩

theorem pairwise_histogram (image : Image) :
    image.histogram.Pairwise fun a b => Outranks image.visible a.1 b.1 := by
  let le (a b : Rgba × Nat) : Bool := b.2 ≤ a.2
  have trans : ∀ a b c, le a b → le b c → le a c := by
    simp only [le, decide_eq_true_eq]
    omega
  have total : ∀ a b, le a b || le b a := by
    simp only [le, Bool.or_eq_true, decide_eq_true_eq]
    omega
  rw [List.pairwise_iff_forall_sublist]
  intro a b listed
  have sorted : le a b :=
    List.pairwise_iff_forall_sublist.mp (List.pairwise_mergeSort trans total _) listed
  have first := (mem_histogram_iff.mp (listed.subset (a := a) (by simp))).2
  have second := (mem_histogram_iff.mp (listed.subset (a := b) (by simp))).2
  by_cases more : b.2 < a.2
  · exact .inl (by omega)
  · -- The two stand in the order in which they have been counted.
    have tie : a.2 = b.2 := by
      simp only [le, decide_eq_true_eq] at sorted
      omega
    have counted : [a, b].Sublist (tally image.visible) := by
      have stays : image.histogram.filter (·.2 = b.2) =
          (tally image.visible).filter (·.2 = b.2) := by
        refine filter_mergeSort trans total ?_ (tally image.visible)
        simp only [le, decide_eq_true_eq]
        omega
      have both := listed.filter (·.2 = b.2)
      rw [stays] at both
      simpa [tie] using both.trans List.filter_sublist
    have order : (tally image.visible).Pairwise fun a b =>
        image.visible.idxOf a.1 < image.visible.idxOf b.1 := by
      rw [tally_eq]
      exact List.pairwise_map.mpr (pairwise_eraseDups image.visible)
    exact .inr ⟨by omega, List.pairwise_iff_forall_sublist.mp order counted⟩

/-! ## The dominant colour -/

/-- The most frequent visible colour, and of several the one that is met first. -/
def IsDominant (image : Image) (color : Rgba) : Prop :=
  color ∈ image.visible ∧ ∀ other ∈ image.visible, other ≠ color →
    Outranks image.visible color other

theorem isDominant_dominant {image : Image} (some : image.visible ≠ []) :
    image.IsDominant image.dominant := by
  cases listed : image.histogram with
  | nil =>
    obtain ⟨c, member⟩ := List.exists_mem_of_ne_nil _ some
    have entry : (c, image.visible.count c) ∈ image.histogram :=
      mem_histogram_iff.mpr ⟨member, rfl⟩
    simp [listed] at entry
  | cons entry rest =>
    have first : image.dominant = entry.1 := by rw [dominant, listed]
    have ranked := pairwise_histogram image
    rw [listed, List.pairwise_cons] at ranked
    rw [first]
    refine ⟨(mem_histogram_iff.mp (listed ▸ List.mem_cons_self)).1, fun c member other => ?_⟩
    have counted : (c, image.visible.count c) ∈ image.histogram :=
      mem_histogram_iff.mpr ⟨member, rfl⟩
    rw [listed, List.mem_cons] at counted
    obtain same | later := counted
    · exact absurd (congrArg Prod.fst same) other
    · exact ranked.1 _ later

end IsoScene.Raster
