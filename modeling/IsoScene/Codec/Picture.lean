import IsoScene.Codec.Farbfeld
import IsoScene.Codec.Gif.Decode
import IsoScene.Codec.Icon
import IsoScene.Codec.Netpbm
import IsoScene.Codec.Qoi
import IsoScene.Codec.Targa

/-! # Picture files

How a picture is stored follows from the suffix of its file, and from nothing else. The decoders
are those of the package `image` 0.24 and of the packages it uses; the codecs say which.

Some formats that `image` reads are left out: JPEG (`jpg`, `jpeg`), WebP (`webp`), TIFF (`tif`,
`tiff`), Radiance (`hdr`), DirectDraw (`dds`) and OpenEXR (`exr`). A file with one of these suffixes
counts as damaged here, whatever it holds.

* `PictureFormat.ofSuffix?` — the format of files with a suffix.
* `PictureFormat.decode?` — the picture in a file of a format.
-/

namespace IsoScene

inductive PictureFormat where
  | png
  | gif
  | bitmap
  | icon
  | netpbm
  | targa
  | farbfeld
  | qoi
deriving DecidableEq, Repr

namespace PictureFormat

/-- The format of files with a suffix, in either letter case, unless it is left out. -/
def ofSuffix? (suffix : List Char) : Option PictureFormat :=
  match String.ofList (suffix.map Char.toLower) with
  | "png" => some png
  | "gif" => some gif
  | "bmp" => some bitmap
  | "ico" => some icon
  | "pbm" | "pgm" | "ppm" | "pam" => some netpbm
  | "tga" => some targa
  | "ff" | "farbfeld" => some farbfeld
  | "qoi" => some qoi
  | _ => none

def decode? (format : PictureFormat) (bytes : ByteArray) : Option Image :=
  match format with
  | png => Codec.Png.decode? bytes
  | gif => Codec.Gif.decode? bytes
  | bitmap => Codec.Bitmap.decode? bytes
  | icon => Codec.Icon.decode? bytes
  | netpbm => Codec.Netpbm.decode? bytes
  | targa => Codec.Targa.decode? bytes
  | farbfeld => Codec.Farbfeld.decode? bytes
  | qoi => Codec.Qoi.decode? bytes

end PictureFormat

end IsoScene
