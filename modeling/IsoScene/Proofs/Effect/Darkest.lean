import IsoScene.Proofs.Effect.Ranking

/-! # The darkest colour

The darkest colour is looked for among the ranked colours, and the first of the least bright ones is
taken. As the ranking goes by counts and first occurrences, of several colours that are as dark it
is the most frequent one, and of several of these the one that is met first
(`isDarkest_of_darkest`). So there is only one (`IsDarkest.unique`).
-/

namespace IsoScene.Raster

theorem darkestOf_eq_none {colors : List Rgba} (none : darkestOf colors = .none) : colors = [] := by
  cases colors with
  | nil => rfl
  | cons c rest =>
    rw [darkestOf] at none
    split at none
    · cases none
    · split at none <;> cases none

/-- The darkest colour is the first of the least bright ones. -/
theorem darkestOf_eq_some {colors : List Rgba} {dark : Rgba}
    (found : darkestOf colors = some dark) :
    ∃ before after, colors = before ++ dark :: after ∧
      (∀ c ∈ before, brightness dark < brightness c) ∧
      ∀ c ∈ after, brightness dark ≤ brightness c := by
  induction colors generalizing dark with
  | nil => cases found
  | cons c rest ih =>
    rw [darkestOf] at found
    split at found
    · next last =>
      obtain rfl := Option.some.inj found
      obtain rfl := darkestOf_eq_none last
      exact ⟨[], [], rfl, by simp, by simp⟩
    · next d later =>
      obtain ⟨before, after, rfl, brighter, asBright⟩ := ih later
      split at found
      · next least =>
        obtain rfl := Option.some.inj found
        refine ⟨[], before ++ d :: after, rfl, by simp, fun e member => Nat.le_trans least ?_⟩
        obtain earlier | rfl | after := by simpa using member
        · exact Nat.le_of_lt (brighter e earlier)
        · exact Nat.le_refl _
        · exact asBright e after
      · next greater =>
        obtain rfl := Option.some.inj found
        refine ⟨c :: before, after, rfl, ?_, asBright⟩
        exact List.forall_mem_cons.mpr ⟨Nat.lt_of_not_le greater, brighter⟩

/-- The least bright of the visible colours, of several the most frequent, and of several of these
the one that is met first. -/
structure IsDarkest (image : Image) (dark : Rgba) : Prop where
  occurs : dark ∈ image.visible
  least : ∀ c ∈ image.visible, brightness dark ≤ brightness c
  frequent : ∀ c ∈ image.visible, brightness c = brightness dark →
    image.toList.count c ≤ image.toList.count dark
  first : ∀ c ∈ image.visible, brightness c = brightness dark →
    image.toList.count c = image.toList.count dark → c ≠ dark → image.MeetsFirst dark c

section
variable {image : Image} {dark other : Rgba}

theorem IsDarkest.unique (one : image.IsDarkest dark) (another : image.IsDarkest other) :
    dark = other := by
  have tie : brightness dark = brightness other :=
    Nat.le_antisymm (one.least other another.occurs) (another.least dark one.occurs)
  have count : image.toList.count dark = image.toList.count other :=
    Nat.le_antisymm (another.frequent dark one.occurs tie)
      (one.frequent other another.occurs tie.symm)
  by_contra apart
  exact (one.first other another.occurs tie.symm count.symm (Ne.symm apart)).not_converse
    (another.first dark one.occurs tie count apart)

/-- The colours of the histogram stand in its order. -/
theorem pairwise_ranked (image : Image) :
    (image.histogram.map (·.1)).Pairwise fun c d =>
      image.toList.count d ≤ image.toList.count c ∧
        (image.toList.count c = image.toList.count d → image.MeetsFirst c d) := by
  have ranking := isRanking_histogram image
  refine List.pairwise_map.mpr
    ((ranking.ordered.and ranking.ties).imp_of_mem fun {a b} first second order => ?_)
  rwa [((ranking.counted a.1 a.2).mp first).2, ((ranking.counted b.1 b.2).mp second).2] at order

theorem mem_ranked_iff {c : Rgba} : c ∈ image.histogram.map (·.1) ↔ c ∈ image.visible := by
  rw [List.mem_map]
  constructor
  · rintro ⟨entry, listed, rfl⟩
    exact (mem_histogram_iff.mp listed).1
  · exact fun member => ⟨(c, image.visible.count c), mem_histogram_iff.mpr ⟨member, rfl⟩, rfl⟩

theorem isDarkest_of_darkest (found : image.darkest = some dark) : image.IsDarkest dark := by
  obtain ⟨before, after, listed, brighter, asBright⟩ := darkestOf_eq_some found
  have ranked := pairwise_ranked image
  rw [listed, List.pairwise_append, List.pairwise_cons] at ranked
  -- What stands before the darkest colour is brighter, and what stands after it has a lower rank.
  have places {c : Rgba} (member : c ∈ image.visible) : c ∈ before ∨ c = dark ∨ c ∈ after := by
    rwa [← mem_ranked_iff, listed, List.mem_append, List.mem_cons] at member
  constructor
  · rw [← mem_ranked_iff, listed]
    simp
  · intro c member
    obtain earlier | rfl | later := places member
    · exact Nat.le_of_lt (brighter c earlier)
    · exact Nat.le_refl _
    · exact asBright c later
  · intro c member tie
    obtain earlier | rfl | later := places member
    · exact absurd tie (Nat.ne_of_gt (brighter c earlier))
    · exact Nat.le_refl _
    · exact (ranked.2.1.1 c later).1
  · intro c member tie count apart
    obtain earlier | same | later := places member
    · exact absurd tie (Nat.ne_of_gt (brighter c earlier))
    · exact absurd same apart
    · exact (ranked.2.1.1 c later).2 count.symm

theorem exists_darkest (visible : image.visible ≠ []) : ∃ dark, image.darkest = some dark := by
  refine Option.ne_none_iff_exists'.mp fun none => visible ?_
  have empty := List.map_eq_nil_iff.mp (darkestOf_eq_none none)
  refine List.eq_nil_iff_forall_not_mem.mpr fun c member => ?_
  rw [← mem_ranked_iff, empty] at member
  cases member

end

end IsoScene.Raster
