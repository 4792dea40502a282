import IsoScene.Proofs.Effect.PixelPass
import IsoScene.Proofs.Raster.Drawing

/-! # Runs of pixel effects

The pass needs nothing but the image and the state of the source that the variants before have left.
So it may be cut anywhere: the pass over a list is the pass over its front, and then over the rest
(`resolvePixels_append`). This is an equation of requests, so it holds of the failures, too.

The size of an image does not depend on what the image shows. Outlines add to it, a plate may be
larger, and every other effect keeps it (`size_of_apply`).
-/

namespace IsoScene

variable {σ : Type} {assets : Assets σ}

/-! ## Cutting -/

theorem resolvePixels_append (front rest : List Variant) (image : Image) :
    resolvePixels assets (front ++ rest) image = (do
      let (image, left) ← resolvePixels assets front image
      let (image, more) ← resolvePixels assets rest image
      pure (image, left ++ more)) := by
  induction front generalizing image with
  | nil =>
    simp only [List.nil_append, resolvePixels, pure_bind]
    exact (bind_pure _).symm
  | cons v front ih =>
    rw [List.cons_append, resolvePixels, resolvePixels, bind_assoc]
    -- Both sides ask for the same first, and from there on they run on the same image.
    refine congrArg (Fetch.ofUser (PixelEffect.parse v) >>= ·) (funext fun effect => ?_)
    cases effect with
    | some effect => simp only [ih, bind_assoc]
    | none => simp only [ih, bind_assoc, pure_bind, List.cons_append]

theorem resolvePixels_of_unknown {variants : List Variant}
    (unknown : ∀ v ∈ variants, v.isUnknown) (image : Image) :
    resolvePixels assets variants image = pure (image, variants) := by
  induction variants with
  | nil => rfl
  | cons v variants ih =>
    obtain ⟨first, later⟩ := List.forall_mem_cons.mp unknown
    rw [resolvePixels, Variant.isUnknown_iff.mp first, Fetch.ofUser, pure_bind, ih later]
    simp only [pure_bind]

section
variable {front rest : List Variant} {image : Image} {state after : σ} {e : RenderError}

theorem resolvePixels_append_of_error
    (failed : (resolvePixels assets front image).answer state = (.error e, after)) :
    (resolvePixels assets (front ++ rest) image).answer state = (.error e, after) := by
  rw [resolvePixels_append, Fetch.answer_bind, failed]

theorem resolvePixels_append_of_later_error {between : Image} {left : List Variant} {middle : σ}
    (resolved : (resolvePixels assets front image).answer state = (.ok (between, left), middle))
    (failed : (resolvePixels assets rest between).answer middle = (.error e, after)) :
    (resolvePixels assets (front ++ rest) image).answer state = (.error e, after) := by
  rw [resolvePixels_append, Fetch.answer_bind, resolved]
  dsimp only
  rw [Fetch.answer_bind, failed]

end

/-! ## Sizes -/

def Raster.size {α : Type} (r : Raster α) : Nat × Nat := (r.width, r.height)

/-- The source may answer with this plate. -/
def Assets.GivesPlate (assets : Assets σ) (plate : Image) : Prop :=
  ∃ before after, assets.plate.answer before = (.ok plate, after)

/-- The size that an effect makes of another, if it sets the image on a plate of this size. -/
def PixelEffect.resize (plate size : Nat × Nat) : PixelEffect → Nat × Nat
  | .outline level => (size.1 + 2 * level, size.2 + 2 * level)
  | .property => (max size.1 plate.1, max size.2 plate.2)
  | .clean | .tint _ | .inactive | .noun | .grayscale => size

/-- The pixel effect that a variant names, if it can be read. -/
def Variant.effect? (v : Variant) : Option PixelEffect :=
  match PixelEffect.parse v with
  | .ok effect => effect
  | .error _ => none

namespace PixelEffect

/-- The plate only matters for text that is set on it. -/
theorem resize_congr {plate other : Nat × Nat} {effect : PixelEffect}
    (same : effect = .property → plate = other) (size : Nat × Nat) :
    effect.resize plate size = effect.resize other size := by
  cases effect with
  | property => rw [same rfl]
  | outline | clean | tint | inactive | noun | grayscale => rfl

theorem size_of_apply {effect : PixelEffect} {image result : Image} {state after : σ}
    (applied : (effect.apply assets image).answer state = (.ok result, after)) :
    ∃ plate, (effect = .property → assets.GivesPlate plate) ∧
      result.size = effect.resize plate.size image.size := by
  have ofPure {made : Image} {state : σ}
      (made_result : (pure made : Fetch σ Image).answer state = (.ok result, after)) :
      made = result := by
    simpa [Fetch.answer_pure] using congrArg Prod.fst made_result
  cases effect with
  | property =>
    obtain ⟨plate, between, answered, made⟩ := Fetch.answer_bind_eq_ok.mp applied
    obtain rfl := ofPure made
    refine ⟨plate, fun _ => ⟨state, between, answered⟩, ?_⟩
    exact Prod.ext (by simp [Raster.size, Raster.property, resize])
      (by simp [Raster.size, Raster.property, resize])
  | tint choice =>
    obtain ⟨color, between, -, made⟩ := Fetch.answer_bind_eq_ok.mp applied
    obtain rfl := ofPure made
    exact ⟨image, nofun, rfl⟩
  | noun =>
    obtain rfl := ofPure applied
    refine ⟨image, nofun, ?_⟩
    rw [Raster.noun]
    split <;> rfl
  | outline | clean | inactive | grayscale =>
    obtain rfl := ofPure applied
    exact ⟨image, nofun, rfl⟩

end PixelEffect

theorem Variant.effect?_of_parse {v : Variant} {effect : Option PixelEffect}
    (parsed : PixelEffect.parse v = .ok effect) : v.effect? = effect := by
  rw [effect?, parsed]

/-- Each effect finds the size that those before it have made. -/
theorem size_of_resolvePixels {variants left : List Variant} {image result : Image}
    {state after : σ}
    (resolved : (resolvePixels assets variants image).answer state = (.ok (result, left), after)) :
    ∃ steps : List (PixelEffect × Image), steps.map (·.1) = variants.filterMap Variant.effect? ∧
      (∀ step ∈ steps, step.1 = .property → assets.GivesPlate step.2) ∧
      result.size = steps.foldl (fun size step => step.1.resize step.2.size size) image.size := by
  induction variants generalizing image left state with
  | nil =>
    rw [resolvePixels, Fetch.answer_pure] at resolved
    simp only [Prod.mk.injEq, Except.ok.injEq] at resolved
    obtain ⟨⟨rfl, -⟩, -⟩ := resolved
    exact ⟨[], rfl, List.forall_mem_nil _, rfl⟩
  | cons v variants ih =>
    rcases resolvePixels_cons_of_ok resolved with
      ⟨effect, next, between, parsed, applied, later⟩ | ⟨others, parsed, rfl, later⟩
    · obtain ⟨plate, given, size⟩ := PixelEffect.size_of_apply applied
      obtain ⟨steps, effects, plates, sizes⟩ := ih later
      refine ⟨(effect, plate) :: steps, ?_, List.forall_mem_cons.mpr ⟨given, plates⟩, ?_⟩
      · rw [List.map_cons, effects, List.filterMap_cons_some (Variant.effect?_of_parse parsed)]
      · rw [sizes, size, List.foldl_cons]
    · rw [List.filterMap_cons_none (Variant.effect?_of_parse parsed)]
      exact ih later

/-- If all plates have one size, it does not matter which of them there was. -/
theorem foldl_resize {plate : Nat × Nat} {steps : List (PixelEffect × Image)}
    (same : ∀ step ∈ steps, step.1 = .property → step.2.size = plate) (size : Nat × Nat) :
    steps.foldl (fun size step => step.1.resize step.2.size size) size =
      (steps.map (·.1)).foldl (fun size effect => effect.resize plate size) size := by
  induction steps generalizing size with
  | nil => rfl
  | cons step steps ih =>
    obtain ⟨here, later⟩ := List.forall_mem_cons.mp same
    rw [List.foldl_cons, PixelEffect.resize_congr here, ih later]
    rfl

/-- The pass over a list is the pass over its front and then, on the image that this gives, over the
rest. What a pass leaves are the variants that name no effect, in order, and a pass over these
changes nothing. Every outline adds its level to each side, and every plate enlarges the sides that
are shorter than its own. -/
theorem resolvePixels_composes (assets : Assets σ) :
    (∀ (front rest : List Variant) (image : Image),
      resolvePixels assets (front ++ rest) image = (do
        let (image, left) ← resolvePixels assets front image
        let (image, more) ← resolvePixels assets rest image
        pure (image, left ++ more))) ∧
    (∀ (front rest : List Variant) (image : Image) (state after : σ) (e : RenderError),
      (resolvePixels assets front image).answer state = (.error e, after) →
      (resolvePixels assets (front ++ rest) image).answer state = (.error e, after)) ∧
    (∀ (front rest left : List Variant) (image between : Image) (state middle after : σ)
      (e : RenderError),
      (resolvePixels assets front image).answer state = (.ok (between, left), middle) →
      (resolvePixels assets rest between).answer middle = (.error e, after) →
      (resolvePixels assets (front ++ rest) image).answer state = (.error e, after)) ∧
    ∀ (variants left : List Variant) (image result : Image) (state after : σ),
      (resolvePixels assets variants image).answer state = (.ok (result, left), after) →
      left = variants.filter Variant.isUnknown ∧
      resolvePixels assets left result = pure (result, left) ∧
      (∃ steps : List (PixelEffect × Image), steps.map (·.1) = variants.filterMap Variant.effect? ∧
        (∀ step ∈ steps, step.1 = .property → assets.GivesPlate step.2) ∧
        result.size = steps.foldl (fun size step => step.1.resize step.2.size size) image.size) ∧
      ∀ plate : Nat × Nat, (∀ given, assets.GivesPlate given → given.size = plate) →
        result.size = (variants.filterMap Variant.effect?).foldl
          (fun size effect => effect.resize plate size) image.size := by
  refine ⟨resolvePixels_append, ?_, ?_, ?_⟩
  · exact fun front rest image state after e => resolvePixels_append_of_error
  · exact fun front rest left image between state middle after e =>
      resolvePixels_append_of_later_error
  · intro variants left image result state after resolved
    obtain ⟨steps, effects, plates, size⟩ := size_of_resolvePixels resolved
    have kept := left_of_resolvePixels resolved
    refine ⟨kept, resolvePixels_of_unknown ?_ result, ⟨steps, effects, plates, size⟩, ?_⟩
    · intro v member
      rw [kept] at member
      exact (List.mem_filter.mp member).2
    · intro plate same
      rw [size, ← effects]
      exact foldl_resize (fun step member isText => same _ (plates step member isText)) _

/-- Two outlines and then a plate. A palette that cannot be read fails before the level that is too
great, and after it the palette is not asked for. -/
theorem resolvePixels_composes_plate :
    let assets : Assets Unit :=
      { palette := throw .undecodable, plate := pure (Raster.filled 4 9 Raster.outlineColor) }
    let front : List Variant := [⟨"sparkle", []⟩, ⟨"m", ["2"]⟩]
    let rest : List Variant := [⟨"prop", []⟩, ⟨"zap", []⟩]
    let image : Image := Raster.filled 2 1 ⟨200, 0, 0, 255⟩
    let red : Variant := ⟨"c", ["red"]⟩
    let high : Variant := ⟨"meta", ["17"]⟩
    let tooHigh : RenderError := .user (.range (.levelTooGreat 16))
    (∃ result left, (resolvePixels assets (front ++ rest) image).answer () =
        (.ok (result, left), ()) ∧
      left = [⟨"sparkle", []⟩, ⟨"zap", []⟩] ∧ resolvePixels assets left result = pure (result, left) ∧
      result.size = (6, 9)) ∧
    (resolvePixels assets (front ++ [red, high]) image).answer () = (.error .undecodable, ()) ∧
    (resolvePixels assets ([high] ++ [red]) image).answer () = (.error tooHigh, ()) := by
  intro assets front rest image red high tooHigh
  obtain ⟨-, failsFirst, failsLater, succeeds⟩ := resolvePixels_composes assets
  refine ⟨?_, ?_, failsFirst [high] [red] image () () tooHigh rfl⟩
  · obtain ⟨result, left, resolved⟩ : ∃ result left,
        (resolvePixels assets (front ++ rest) image).answer () = (.ok (result, left), ()) :=
      ⟨_, _, rfl⟩
    obtain ⟨kept, again, -, size⟩ := succeeds (front ++ rest) left image result () () resolved
    refine ⟨result, left, resolved, kept, again, ?_⟩
    refine (size (4, 9) ?_).trans rfl
    rintro given ⟨before, after, ⟨⟩⟩
    rfl
  · exact failsLater front [red, high] [⟨"sparkle", []⟩] image (image.surround 2) () () () _ rfl rfl

end IsoScene
