import IsoScene.Raster.Basic

/-! # Edges of shapes

The edge kernel lights the transparent cells next to a shape and darkens the shape itself:

```text
 0  1  0
 1 -4  1
 0  1  0
```

It is applied to an alpha channel; outside the raster everything is zero, and each sum is clamped
to a byte.

* `Raster.alpha` — the alpha channel of an image.
* `Raster.edges`, `Raster.edgesTimes` — the kernel, once and repeatedly.
* `Raster.pad` — transparent cells on every side.
-/

namespace IsoScene.Raster

def alpha (image : Image) : Raster UInt8 := image.map Rgba.alpha

def clampByte (n : Int) : UInt8 := UInt8.ofNat (min n.toNat 255)

/-- The content of a channel at any place of the plane. -/
def level (channel : Raster UInt8) (x y : Int) : Int := (channel.sample x y).toNat

/-- The kernel's sum around one place. -/
def edgeSum (channel : Raster UInt8) (x y : Int) : Int :=
  channel.level x (y - 1) + channel.level (x - 1) y + channel.level (x + 1) y +
    channel.level x (y + 1) - 4 * channel.level x y

def edges (channel : Raster UInt8) : Raster UInt8 :=
  ofFn channel.width channel.height fun x y => clampByte (channel.edgeSum x y)

def edgesTimes (channel : Raster UInt8) : Nat → Raster UInt8
  | 0 => channel
  | passes + 1 => (edgesTimes channel passes).edges

/-- An image with `size` transparent cells added on every side. -/
def pad (image : Image) (size : Nat) : Image :=
  ofFn (image.width + 2 * size) (image.height + 2 * size) fun x y =>
    image.sample ((x : Int) - size) ((y : Int) - size)

end IsoScene.Raster
