import IsoScene.Effect.Apply
import IsoScene.Proofs.Fetch

/-! # The pixel pass

The pass goes through the variants in order. If the shared bitmaps do not change, it has one answer
(`agree_resolvePixels`); and whatever they are, it leaves the variants that name no pixel effect
(`left_of_resolvePixels`).
-/

namespace IsoScene

open Fetch (Agree)

variable {σ : Type}

/-! ## Steady bitmaps -/

/-- The shared bitmaps do not change while the states of the source are allowed. -/
structure Assets.AreSteady (assets : Assets σ) (Inv : σ → Prop) : Prop where
  palette : Agree Inv assets.palette assets.palette
  plate : Agree Inv assets.plate assets.plate

section
variable {assets : Assets σ} {Inv : σ → Prop} (steady : assets.AreSteady Inv)
include steady

theorem ColorChoice.agree_resolve (choice : ColorChoice) :
    Agree Inv (choice.resolve assets) (choice.resolve assets) := by
  cases choice with
  | literal color => exact .pure color
  | palette place =>
    refine steady.palette.bind fun palette => ?_
    cases palette.get? place.column place.row with
    | none => exact .throw _
    | some color => exact .pure color

theorem PixelEffect.agree_apply (effect : PixelEffect) (image : Image) :
    Agree Inv (effect.apply assets image) (effect.apply assets image) := by
  cases effect with
  | tint choice => exact (choice.agree_resolve steady).bind fun color => .pure _
  | property => exact steady.plate.bind fun plate => .pure _
  | outline level => exact .pure _
  | clean => exact .pure _
  | inactive => exact .pure _
  | noun => exact .pure _
  | grayscale => exact .pure _

theorem agree_resolvePixels (variants : List Variant) (image : Image) :
    Agree Inv (resolvePixels assets variants image) (resolvePixels assets variants image) := by
  induction variants generalizing image with
  | nil => exact .pure _
  | cons v rest ih =>
    rw [resolvePixels]
    refine (Agree.ofUser _).bind fun effect => ?_
    cases effect with
    | none => exact (ih image).bind fun result => .pure _
    | some effect => exact (effect.agree_apply steady image).bind ih

end

/-! ## What is left -/

/-- The variant names no pixel effect. -/
def Variant.isUnknown (v : Variant) : Bool :=
  match PixelEffect.parse v with
  | .ok none => true
  | _ => false

theorem Variant.isUnknown_iff {v : Variant} : v.isUnknown ↔ PixelEffect.parse v = .ok none := by
  rw [isUnknown]
  split
  · next unknown => simp [unknown]
  · next other => simpa using other

section
variable {assets : Assets σ} {variants left : List Variant} {image result : Image}
  {state after : σ}

/-- In a pass that succeeds the first variant names an effect, which is applied, or it stays in front
of what the rest of the pass leaves. -/
theorem resolvePixels_cons_of_ok {v : Variant}
    (resolved : (resolvePixels assets (v :: variants) image).answer state =
      (.ok (result, left), after)) :
    (∃ effect next between, PixelEffect.parse v = .ok (some effect) ∧
      (effect.apply assets image).answer state = (.ok next, between) ∧
        (resolvePixels assets variants next).answer between = (.ok (result, left), after)) ∨
    ∃ others, PixelEffect.parse v = .ok none ∧ left = v :: others ∧
      (resolvePixels assets variants image).answer state = (.ok (result, others), after) := by
  rw [resolvePixels] at resolved
  cases parsed : PixelEffect.parse v with
  | error e =>
    rw [parsed, Fetch.ofUser, Fetch.answer_bind, Fetch.answer_throw] at resolved
    simp at resolved
  | ok effect =>
    rw [parsed, Fetch.ofUser, pure_bind] at resolved
    cases effect with
    | some effect =>
      obtain ⟨next, between, applied, later⟩ := Fetch.answer_bind_eq_ok.mp resolved
      exact .inl ⟨effect, next, between, rfl, applied, later⟩
    | none =>
      obtain ⟨⟨next, others⟩, between, later, kept⟩ := Fetch.answer_bind_eq_ok.mp resolved
      obtain ⟨⟨rfl, rfl⟩, rfl⟩ : (next = result ∧ v :: others = left) ∧ between = after := by
        simpa [Fetch.answer_pure] using kept
      exact .inr ⟨others, rfl, rfl, later⟩

/-- A pass that succeeds leaves the variants that name no pixel effect, in order. -/
theorem left_of_resolvePixels
    (resolved : (resolvePixels assets variants image).answer state = (.ok (result, left), after)) :
    left = variants.filter Variant.isUnknown := by
  induction variants generalizing image left state with
  | nil =>
    rw [resolvePixels, Fetch.answer_pure] at resolved
    simp only [Prod.mk.injEq, Except.ok.injEq] at resolved
    exact resolved.1.2.symm
  | cons v variants ih =>
    rcases resolvePixels_cons_of_ok resolved with
      ⟨effect, next, between, parsed, -, later⟩ | ⟨others, parsed, rfl, later⟩
    · have known : ¬ v.isUnknown := by simp [Variant.isUnknown_iff, parsed]
      rw [ih later, List.filter_cons_of_neg known]
    · rw [ih later, List.filter_cons_of_pos (Variant.isUnknown_iff.mpr parsed)]

end

end IsoScene
