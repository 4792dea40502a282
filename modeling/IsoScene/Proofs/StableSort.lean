import Mathlib.Data.List.Basic

/-! # Stable sorting

A comparison that is a total preorder may leave items tied that are not equal. Such items keep the
order in which they were given. With this an ordered list has no freedom left: of two ordered lists
each head is least in both, so the heads are tied, and as the first of the items that are tied with
them they are equal (`eq_of_tiedWith`). So there is one stable sort of a list, which is the merge
sort (`isStableSort_iff`).
-/

namespace IsoScene

variable {α : Type}

/-- A stable sort leaves the order of items that may stand in either order. -/
theorem filter_mergeSort {le : α → α → Bool}
    (trans : ∀ a b c, le a b → le b c → le a c) (total : ∀ a b, le a b || le b a)
    {tied : α → Bool} (ties : ∀ a b, tied a → tied b → le a b) (items : List α) :
    (items.mergeSort le).filter tied = items.filter tied := by
  have ordered : (items.filter tied).Pairwise fun a b => le a b := by
    refine List.pairwise_of_forall_mem_list fun a first b second => ?_
    exact ties a b (List.mem_filter.mp first).2 (List.mem_filter.mp second).2
  have kept : (items.filter tied).Sublist (items.mergeSort le) :=
    List.sublist_mergeSort trans total ordered List.filter_sublist
  have inside : (items.filter tied).Sublist ((items.mergeSort le).filter tied) := by
    simpa using kept.filter tied
  exact (inside.eq_of_length ((List.mergeSort_perm items le).filter tied).length_eq.symm).symm

/-- The items that are tied with an item, in the order in which they stand. -/
def tiedWith (cmp : α → α → Ordering) (a : α) (items : List α) : List α :=
  items.filter fun b => cmp a b == .eq

/-- The items of a list, none before a lesser one, and those that are tied in the order in which
they stand in the list. -/
structure IsStableSort (cmp : α → α → Ordering) (items sorted : List α) : Prop where
  perm : sorted.Perm items
  ordered : sorted.Pairwise fun a b => (cmp a b).isLE
  stable : ∀ a, tiedWith cmp a sorted = tiedWith cmp a items

section
variable {cmp : α → α → Ordering} {a b : α} {items : List α}

theorem mem_tiedWith : b ∈ tiedWith cmp a items ↔ b ∈ items ∧ cmp a b = .eq := by
  simp [tiedWith]

theorem tiedWith_cons_of_eq (tie : cmp a b = .eq) :
    tiedWith cmp a (b :: items) = b :: tiedWith cmp a items := by
  simp [tiedWith, tie]

theorem tiedWith_cons_of_ne (apart : cmp a b ≠ .eq) :
    tiedWith cmp a (b :: items) = tiedWith cmp a items := by
  simp [tiedWith, apart]

end

section
variable {cmp : α → α → Ordering} [Std.TransCmp cmp] {first second items sorted : List α}

theorem isLE_total (a b : α) : (cmp a b).isLE ∨ (cmp b a).isLE := by
  by_cases above : (cmp a b).isLE
  · exact .inl above
  · have below : cmp b a = .lt := Std.OrientedCmp.lt_of_not_isLE above
    exact .inr (Ordering.isLE_of_eq_lt below)

theorem mem_of_tiedWith {a : α} (alike : tiedWith cmp a first = tiedWith cmp a second)
    (member : a ∈ first) : a ∈ second := by
  have tied : a ∈ tiedWith cmp a first := mem_tiedWith.mpr ⟨member, Std.ReflCmp.compare_self⟩
  rw [alike] at tied
  exact (mem_tiedWith.mp tied).1

theorem isLE_head {a b : α} (ordered : (a :: items).Pairwise fun a b => (cmp a b).isLE)
    (member : b ∈ a :: items) : (cmp a b).isLE := by
  rcases List.mem_cons.mp member with rfl | later
  · exact Std.ReflCmp.isLE_rfl
  · exact (List.pairwise_cons.mp ordered).1 b later

/-- Ordered lists are equal if tied items stand in the same order in both. -/
theorem eq_of_tiedWith (orderedFirst : first.Pairwise fun a b => (cmp a b).isLE)
    (orderedSecond : second.Pairwise fun a b => (cmp a b).isLE)
    (alike : ∀ a, tiedWith cmp a first = tiedWith cmp a second) : first = second := by
  induction first generalizing second with
  | nil =>
    cases second with
    | nil => rfl
    | cons b second => cases mem_of_tiedWith (alike b).symm List.mem_cons_self
  | cons a first ih =>
    cases second with
    | nil => cases mem_of_tiedWith (alike a) List.mem_cons_self
    | cons b second =>
      have above := isLE_head orderedFirst (mem_of_tiedWith (alike b).symm List.mem_cons_self)
      have below := isLE_head orderedSecond (mem_of_tiedWith (alike a) List.mem_cons_self)
      have tie : cmp a b = .eq := Std.OrientedCmp.isLE_antisymm above below
      have heads := alike a
      rw [tiedWith_cons_of_eq Std.ReflCmp.compare_self, tiedWith_cons_of_eq tie] at heads
      obtain rfl := (List.cons.inj heads).1
      refine congrArg (a :: ·) (ih orderedFirst.of_cons orderedSecond.of_cons fun c => ?_)
      have rest := alike c
      by_cases tied : cmp c a = .eq
      · rw [tiedWith_cons_of_eq tied, tiedWith_cons_of_eq tied] at rest
        exact (List.cons.inj rest).2
      · rwa [tiedWith_cons_of_ne tied, tiedWith_cons_of_ne tied] at rest

theorem isStableSort_mergeSort (items : List α) :
    IsStableSort cmp items (items.mergeSort fun a b => (cmp a b).isLE) := by
  have trans (a b c : α) (below : (cmp a b).isLE) (above : (cmp b c).isLE) : (cmp a c).isLE :=
    Std.TransCmp.isLE_trans below above
  have total (a b : α) : (cmp a b).isLE || (cmp b a).isLE :=
    Bool.or_eq_true_iff.mpr (isLE_total a b)
  refine ⟨List.mergeSort_perm items _, List.pairwise_mergeSort trans total items, fun a => ?_⟩
  refine filter_mergeSort trans total (fun b c first second => ?_) items
  have tie : cmp b c = .eq :=
    Std.TransCmp.eq_trans (Std.OrientedCmp.eq_symm (beq_iff_eq.mp first)) (beq_iff_eq.mp second)
  exact Ordering.isLE_of_eq_eq tie

/-- There is one stable sort of a list. -/
theorem isStableSort_iff :
    IsStableSort cmp items sorted ↔ sorted = items.mergeSort fun a b => (cmp a b).isLE := by
  constructor
  · intro sort
    have merged : IsStableSort cmp items _ := isStableSort_mergeSort items
    exact eq_of_tiedWith sort.ordered merged.ordered fun a =>
      (sort.stable a).trans (merged.stable a).symm
  · rintro rfl
    exact isStableSort_mergeSort items

end

end IsoScene
