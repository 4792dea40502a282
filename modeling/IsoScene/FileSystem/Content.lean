import IsoScene.Codec.Gif.Encode
import IsoScene.Codec.Picture

/-! # What files hold

Pictures and animations that have been made here are kept as what they are; of other files the
bytes are known.

* `FileContent` — bytes, a picture, or an animation.
* `FileContent.picture?` — the picture that a file holds in some format.
* `FileContent.toBytes` — the bytes of a file.
-/

namespace IsoScene

/-- What a file holds. Pictures are kept in PNG files, and animations in GIF files. -/
inductive FileContent where
  | bytes (content : ByteArray)
  | picture (image : Image)
  | animation (animation : Animation)

namespace FileContent

instance : DecidableEq FileContent
  | .bytes ⟨a⟩, .bytes ⟨b⟩ => decidable_of_iff (a = b) (by simp)
  | .picture a, .picture b => decidable_of_iff (a = b) (by simp)
  | .animation a, .animation b => decidable_of_iff (a = b) (by simp)
  | .bytes _, .picture _ => .isFalse nofun
  | .bytes _, .animation _ => .isFalse nofun
  | .picture _, .bytes _ => .isFalse nofun
  | .picture _, .animation _ => .isFalse nofun
  | .animation _, .bytes _ => .isFalse nofun
  | .animation _, .picture _ => .isFalse nofun

def toBytes : FileContent → ByteArray
  | bytes content => content
  | picture image => Codec.Png.encode image
  | animation content => Codec.Gif.encode content

/-- The picture that a file holds, if it is read in a format. A file that has been written in one
format holds nothing in another. -/
def picture? (format : PictureFormat) : FileContent → Option Image
  | bytes content => format.decode? content
  | picture image => if format = .png then some image else none
  | animation content =>
    if format = .gif then Codec.Gif.decode? (Codec.Gif.encode content) else none

end FileContent

end IsoScene
