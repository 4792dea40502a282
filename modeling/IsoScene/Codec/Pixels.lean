import IsoScene.Raster.Basic

/-! # Samples and pixels

A picture file gives samples, some for each pixel. They become pixels of four bytes, rounded as in
the package `image` 0.24, which also bounds the size of a picture.

* `PixelLayout` — what the samples of a pixel stand for.
* `PixelLayout.picture?` — the picture of some samples, unless it is too large.
* `narrowSample`, `widenSample` — samples of more or fewer than eight bits as bytes.
-/

namespace IsoScene.Codec

inductive PixelLayout where
  | gray
  | grayAlpha
  | rgb
  | rgba
deriving DecidableEq

namespace PixelLayout

def channels : PixelLayout → Nat
  | gray => 1
  | grayAlpha => 2
  | rgb => 3
  | rgba => 4

/-- The pixel of some samples. Without a sample for it, a pixel is opaque. -/
def pixel (layout : PixelLayout) (sample : Nat → UInt8) : Rgba :=
  match layout with
  | gray => ⟨sample 0, sample 0, sample 0, 255⟩
  | grayAlpha => ⟨sample 0, sample 0, sample 0, sample 1⟩
  | rgb => ⟨sample 0, sample 1, sample 2, 255⟩
  | rgba => ⟨sample 0, sample 1, sample 2, sample 3⟩

/-- The greatest size of the samples of a picture, in bytes. -/
def maxPictureBytes : Nat := 536870912

/-- A picture is not too large if its samples have so many bytes each. -/
def Fits (layout : PixelLayout) (width height sampleBytes : Nat) : Prop :=
  width * height * (layout.channels * sampleBytes) ≤ maxPictureBytes

instance (layout : PixelLayout) (width height sampleBytes : Nat) :
    Decidable (layout.Fits width height sampleBytes) := by
  unfold Fits; infer_instance

/-- The picture of samples that are numbered from zero on, row by row. -/
def picture? (layout : PixelLayout) (width height sampleBytes : Nat) (sample : Nat → UInt8) :
    Option Image :=
  if layout.Fits width height sampleBytes then
    some (Raster.ofFn width height fun x y =>
      layout.pixel fun i => sample ((y * width + x) * layout.channels + i))
  else none

end PixelLayout

/-- The byte that is nearest to a sample of sixteen bits. -/
def narrowSample (n : Nat) : UInt8 := UInt8.ofNat ((n + 128) / 257)

/-- The byte that is nearest to a sample of at most eight bits. -/
def widenSample (depth n : Nat) : UInt8 :=
  let greatest := (1 <<< depth) - 1
  UInt8.ofNat ((2 * 255 * n + greatest) / (2 * greatest))

/-- Narrowing undoes what widening a byte to sixteen bits does. -/
theorem narrowSample_mul (b : UInt8) : narrowSample (257 * b.toNat) = b := by
  have h : (257 * b.toNat + 128) / 257 = b.toNat := by omega
  simp [narrowSample, h]

end IsoScene.Codec
