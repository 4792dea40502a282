import IsoScene.Glyph.Layout
import IsoScene.Proofs.Failure
import Mathlib.Algebra.BigOperators.Group.List.Basic
import Mathlib.Algebra.GroupWithZero.Nat
import Mathlib.Data.List.MinMax

/-! # The search for a layout

The search for the layout of a line follows only choices of widths that can still fit the tile, and
it keeps one layout, the best so far. It finds all the same what a look at every layout would find
(`searchAll_eq_argmin`).

A branch that is cut holds no layout that fits, since every choice of the widths that are left takes
at least the least total (`leastSum_le`). So a search on some letters is the run of `better` over
all the layouts below it that fit (`search_eq`), and such a run keeps the first of the nearest.
-/

namespace IsoScene.Glyph

/-! ## Arithmetic below the width of a tile -/

/-- Whether a sum exceeds the tile does not depend on where sums stop. -/
theorem Width.tileSize_lt_add {a b : Nat} : tileSize < Width.add a b ↔ tileSize < a + b := by
  simp only [Width.add, Text.maxNat32, tileSize]
  omega

theorem Width.add_eq {a b : Nat} (fits : ¬ tileSize < Width.add a b) : Width.add a b = a + b := by
  simp only [Width.add, Text.maxNat32, tileSize] at fits ⊢
  omega

namespace LineLayout

/-! ## All layouts -/

/-- Every choice of one width for each letter, the first letter slowest. -/
def selections : List (List Nat) → List (List Nat)
  | [] => [[]]
  | widths :: rest => widths.flatMap fun width => (selections rest).map (width :: ·)

/-- Some widths with the same spacing between any two of them. -/
def spaced (spacing : Nat) (widths : List Nat) : LineLayout :=
  ⟨widths, spacing, widths.sum + spacing * (widths.length - 1)⟩

/-- Every layout of a line, those with the preferred spacing first. -/
def candidates (choices : List (List Nat)) : List LineLayout :=
  spacings.flatMap fun spacing => (selections choices).map (spaced spacing)

def fitsTile (layout : LineLayout) : Bool := layout.total ≤ tileSize

theorem length_of_mem_selections {choices : List (List Nat)} {widths : List Nat}
    (member : widths ∈ selections choices) : widths.length = choices.length := by
  induction choices generalizing widths with
  | nil =>
    obtain rfl : widths = [] := by simpa [selections] using member
    rfl
  | cons first rest ih =>
    simp only [selections, List.mem_flatMap, List.mem_map] at member
    obtain ⟨width, -, others, member, rfl⟩ := member
    rw [List.length_cons, List.length_cons, ih member]

theorem selections_eq_nil_iff {choices : List (List Nat)} :
    selections choices = [] ↔ [] ∈ choices := by
  induction choices with
  | nil => simp [selections]
  | cons first rest ih =>
    rw [selections, List.flatMap_eq_nil_iff, List.mem_cons, ← ih]
    cases first with
    | nil => simp
    | cons width others =>
      simp only [List.map_eq_nil_iff, List.forall_mem_cons, reduceCtorEq, false_or]
      exact ⟨And.left, fun none => ⟨none, fun _ _ => none⟩⟩

/-! ## Bounds -/

/-- The width that some letters take at least, as the sum that it is. -/
def leastSum (choices : List (List Nat)) : Nat := (choices.map leastWidth).sum

theorem leastTotal_eq (choices : List (List Nat)) :
    leastTotal choices = min (leastSum choices) Text.maxNat32 := by
  induction choices with
  | nil => rfl
  | cons widths rest ih =>
    have step : leastTotal (widths :: rest) = Width.add (leastTotal rest) (leastWidth widths) := rfl
    have sum : leastSum (widths :: rest) = leastWidth widths + leastSum rest := by
      simp [leastSum]
    rw [step, sum, ih, Width.add]
    omega

/-- A sum with the least total exceeds the tile if it does so with the sum of the least widths. -/
theorem tileSize_lt_add_leastTotal {used : Nat} {choices : List (List Nat)} :
    tileSize < Width.add used (leastTotal choices) ↔ tileSize < used + leastSum choices := by
  rw [Width.tileSize_lt_add, leastTotal_eq]
  simp only [tileSize, Text.maxNat32]
  omega

theorem foldl_min_le {width : Nat} {widths : List Nat} :
    widths.foldl min width ≤ width ∧ ∀ other ∈ widths, widths.foldl min width ≤ other := by
  induction widths generalizing width with
  | nil => simp
  | cons first rest ih =>
    obtain ⟨start, others⟩ := @ih (min width first)
    rw [List.foldl_cons]
    refine ⟨by omega, List.forall_mem_cons.mpr ⟨by omega, others⟩⟩

theorem leastWidth_le {width : Nat} {widths : List Nat} (member : width ∈ widths) :
    leastWidth widths ≤ width := by
  cases widths with
  | nil => cases member
  | cons first rest =>
    obtain ⟨start, others⟩ := @foldl_min_le first rest
    exact List.forall_mem_cons.mpr ⟨start, others⟩ width member

theorem leastSum_le {choices : List (List Nat)} {widths : List Nat}
    (member : widths ∈ selections choices) : leastSum choices ≤ widths.sum := by
  induction choices generalizing widths with
  | nil => exact Nat.zero_le _
  | cons first rest ih =>
    simp only [selections, List.mem_flatMap, List.mem_map] at member
    obtain ⟨width, taken, others, member, rfl⟩ := member
    have here := leastWidth_le taken
    have later := ih member
    simp only [leastSum, List.map_cons, List.sum_cons] at later ⊢
    omega

/-! ## The search -/

/-- The layouts below a place of the search. -/
def completions (spacing : Nat) (choices : List (List Nat)) (used : Nat) (chosen : List Nat) :
    List LineLayout :=
  (selections choices).map fun widths => ⟨chosen.reverse ++ widths, spacing, used + widths.sum⟩

theorem completions_cons (spacing : Nat) (widths : List Nat) (rest : List (List Nat)) (used : Nat)
    (chosen : List Nat) :
    completions spacing (widths :: rest) used chosen =
      widths.flatMap fun width => completions spacing rest (used + width) (width :: chosen) := by
  simp only [completions, selections, List.map_flatMap, List.map_map]
  congr! 3
  funext others
  simp [Nat.add_assoc]

theorem filter_completions_of_wide {spacing used : Nat} {choices : List (List Nat)}
    {chosen : List Nat} (wide : tileSize < used + leastSum choices) :
    (completions spacing choices used chosen).filter fitsTile = [] := by
  rw [List.filter_eq_nil_iff]
  intro layout member
  obtain ⟨widths, selected, rfl⟩ := List.mem_map.mp member
  have least := leastSum_le selected
  simp only [fitsTile, decide_eq_true_eq]
  omega

/-- The search looks at every layout that fits. The place where it starts fits the tile by itself
if no letter is left. -/
theorem search_eq {target spacing used : Nat} {choices : List (List Nat)} {chosen : List Nat}
    {best : Option LineLayout} (fits : choices = [] → used ≤ tileSize) :
    search target spacing choices used chosen best =
      ((completions spacing choices used chosen).filter fitsTile).foldl (better target) best := by
  induction choices generalizing used chosen best with
  | nil => simp [search, completions, selections, fitsTile, fits rfl]
  | cons widths rest ih =>
    rw [completions_cons, List.filter_flatMap, List.foldl_flatMap, search]
    refine List.foldl_ext _ _ best fun best width _ => ?_
    dsimp only
    by_cases wide : tileSize < Width.add (Width.add used width) (leastTotal rest)
    · -- Sums that stop at the greatest number are beyond the tile, too.
      have exceeds : tileSize < used + width + leastSum rest := by
        rw [tileSize_lt_add_leastTotal, Width.add] at wide
        omega
      rw [if_pos wide, filter_completions_of_wide exceeds, List.foldl_nil]
    · have within : ¬ tileSize < Width.add used width := by
        rw [tileSize_lt_add_leastTotal] at wide
        omega
      rw [if_neg wide, Width.add_eq within]
      exact ih fun _ => Nat.le_of_not_lt (Width.tileSize_lt_add.not.mp within)

/-! ## The best layout -/

theorem foldl_better_eq_argmin (target : Nat) (layouts : List LineLayout) :
    layouts.foldl (better target) none =
      layouts.argmin fun layout => ((layout.total : Int) - target).natAbs := by
  have step : better target = List.argAux fun layout other : LineLayout =>
      ((layout.total : Int) - target).natAbs < ((other.total : Int) - target).natAbs := by
    funext best layout
    cases best with
    | none => rfl
    | some other =>
      have nearer : distance target layout.total < distance target other.total ↔
          ((layout.total : Int) - target).natAbs < ((other.total : Int) - target).natAbs := by
        simp only [distance]
        omega
      exact if_congr nearer rfl rfl
  rw [step]
  rfl

theorem completions_start (spacing : Nat) (choices : List (List Nat)) :
    completions spacing choices (spacing * (choices.length - 1)) [] =
      (selections choices).map (spaced spacing) := by
  refine List.map_congr_left fun widths selected => ?_
  simp [spaced, length_of_mem_selections selected, Nat.add_comm]

/-- Without room for the narrowest letters at the narrowest spacing, no layout fits. -/
theorem filter_candidates_of_wide {choices : List (List Nat)}
    (wide : tileSize < Width.add (leastTotal choices) (choices.length - 1)) :
    (candidates choices).filter fitsTile = [] := by
  rw [Width.tileSize_lt_add, leastTotal_eq] at wide
  rw [candidates, List.filter_flatMap, List.flatMap_eq_nil_iff]
  intro spacing member
  rw [← completions_start]
  refine filter_completions_of_wide ?_
  have gaps : choices.length - 1 ≤ spacing * (choices.length - 1) := by
    refine Nat.le_mul_of_pos_left _ ?_
    revert member spacing
    decide
  simp only [tileSize, Text.maxNat32] at wide ⊢
  omega

/-- The run over all layouts that fit, spacing by spacing. -/
theorem foldl_search {choices : List (List Nat)} (letters : choices ≠ []) (target : Nat) :
    spacings.foldl
        (fun best spacing =>
          search target spacing choices (spacing * (choices.length - 1)) [] best) none =
      ((candidates choices).filter fitsTile).argmin fun layout =>
        ((layout.total : Int) - target).natAbs := by
  rw [← foldl_better_eq_argmin, candidates, List.filter_flatMap, List.foldl_flatMap]
  refine List.foldl_ext _ _ none fun best spacing _ => ?_
  rw [search_eq fun nothing => absurd nothing letters, completions_start]

/-- No step of the search leaves the numbers of 32 bits. -/
theorem searchAll_of_few {choices : List (List Nat)} (letters : choices ≠ [])
    (few : choices.length ≤ Text.maxNat32) (target : Nat) :
    searchAll choices target =
      .ok (((candidates choices).filter fitsTile).argmin fun layout =>
        ((layout.total : Int) - target).natAbs) := by
  have notEmpty : choices.isEmpty = false := by simpa using letters
  rw [searchAll, notEmpty, Bool.false_or]
  by_cases missing : [] ∈ choices
  · have unwritable : choices.any List.isEmpty = true := by simpa using missing
    simp [unwritable, candidates, selections_eq_nil_iff.mpr missing, spacings]
  · have writable : ¬ choices.any List.isEmpty = true := by simpa using missing
    have gaps : Width.sub (Width.count choices) 1 = .ok (choices.length - 1) := by
      have positive := List.length_pos_of_ne_nil letters
      rw [Width.count, Nat.mod_eq_of_lt (by omega), Width.sub, if_pos (by omega)]
    rw [if_neg writable, gaps, ok_bind]
    by_cases wide : tileSize < Width.add (leastTotal choices) (choices.length - 1)
    · rw [if_pos wide, filter_candidates_of_wide wide, List.argmin_nil]
    · -- The gaps alone fit the tile, so their widths are small numbers.
      have product : ∀ spacing ∈ spacings,
          Width.mul spacing (choices.length - 1) = .ok (spacing * (choices.length - 1)) := by
        intro spacing member
        have narrow : choices.length - 1 ≤ tileSize := by
          rw [Width.tileSize_lt_add] at wide
          omega
        have small : spacing ≤ 2 := by
          revert member spacing
          decide
        exact if_pos ((Nat.mul_le_mul small narrow).trans (by decide))
      rw [if_neg wide, ← foldl_search letters]
      refine foldlM_eq_ok (fun spacing member best => ?_) none
      rw [product spacing member, ok_bind]

/-- The search finds the first of the layouts that fit the tile and are nearest to the target, and
nothing only if there is no such layout. -/
theorem searchAll_eq_argmin {choices : List (List Nat)} (few : choices.length < 2 ^ 32)
    (target : Nat) :
    searchAll choices target = .ok (best? choices target) ∧
      (best? choices target = none ↔
        choices = [] ∨ [] ∈ choices ∨ ∀ layout ∈ candidates choices, tileSize < layout.total) ∧
      (choices ≠ [] → best? choices target =
        ((candidates choices).filter (·.total ≤ tileSize)).argmin fun layout =>
          ((layout.total : Int) - target).natAbs) := by
  by_cases letters : choices = []
  · subst letters
    exact ⟨rfl, by simp [best?, searchAll], fun some => absurd rfl some⟩
  · have searched := searchAll_of_few letters (Nat.le_of_lt_succ few) target
    have best : best? choices target = ((candidates choices).filter fitsTile).argmin fun layout =>
        ((layout.total : Int) - target).natAbs := by
      rw [best?, searched]
    refine ⟨by rw [best, searched], ?_, fun _ => best⟩
    rw [best, List.argmin_eq_none, List.filter_eq_nil_iff]
    constructor
    · intro none
      refine .inr (.inr fun layout member => ?_)
      simpa [fitsTile] using none layout member
    · rintro (nothing | missing | wide) layout member
      · exact absurd nothing letters
      · simp [candidates, selections_eq_nil_iff.mpr missing] at member
      · simpa [fitsTile] using wide layout member

/-- Letters of which one has no narrow width, and the greatest width that there is. -/
theorem searchAll_eq_argmin_greatest :
    let choices := [[4294967295, 6, 5], [5, 6], [13, 4]]
    choices.length < 2 ^ 32 ∧
      searchAll choices 18 = .ok (some ⟨[5, 5, 4], 2, 18⟩) ∧
      ((candidates choices).filter (·.total ≤ tileSize)).argmin (fun layout =>
          ((layout.total : Int) - (18 : Nat)).natAbs) = some ⟨[5, 5, 4], 2, 18⟩ := by
  intro choices
  have few : choices.length < 2 ^ 32 := by decide
  obtain ⟨searched, -, nearest⟩ := searchAll_eq_argmin few 18
  have best : best? choices 18 = some ⟨[5, 5, 4], 2, 18⟩ := by decide +kernel
  rw [best] at searched nearest
  exact ⟨few, searched, (nearest (by decide)).symm⟩

end LineLayout

end IsoScene.Glyph
