import IsoScene.Color.Palette

/-! # What can go wrong

Errors come in two tiers. A `UserError` is something the author of a scene can mend, and its
message is shown as it is. A `RenderError` is either such an error or an internal failure, which
is reported by one fixed sentence.

* `ArgumentError`, `RangeError`, `LayoutError` — the causes behind the user errors.
* `UserError.message`, `RenderError.message` — the texts for the author.
* `RenderError.detail` — the text that names an internal failure.
-/

namespace IsoScene

inductive ArgumentError where
  | groundWithoutTile
  | backgroundWithoutColor
  | badBackground (value : String) (cause : ColorError)
  | displacementArity
  | displacementNotNumeric
  | displacementNotFinite
  | levelNotInteger
  | levelArity
  | noArguments (effect : String)
  | colorInTwoParts (first second : String)
  | colorArity
  | badColor (spec : String) (cause : ColorError)
  | unknownColor (spec : String)
  | outsidePalette (place : PaletteCoord)
deriving DecidableEq, Repr

def ArgumentError.message : ArgumentError → String
  | .groundWithoutTile => "The `ground` flag needs a tile, like `--ground=#grass`."
  | .backgroundWithoutColor => "The `bg` flag needs a color, like `--bg=#RRGGBB`."
  | .badBackground value cause =>
    "Invalid background color `" ++ value ++ "`: " ++ cause.message
  | .displacementArity => "Need 3 numeric arguments for displacement (one for each axis)."
  | .displacementNotNumeric => "All arguments for displacement need to be numeric!"
  | .displacementNotFinite => "Displacement must be a finite number."
  | .levelNotInteger => "Meta level must be an integer!"
  | .levelArity => "Meta takes at most one argument (the level)."
  | .noArguments effect => "`" ++ effect ++ "` doesn't take any arguments."
  | .colorInTwoParts first second =>
    "Color takes one argument. Did you mean `c/" ++ first ++ "," ++ second ++ "`?"
  | .colorArity => "Color takes exactly one argument."
  | .badColor spec cause => "Invalid color `" ++ spec ++ "`: " ++ cause.message
  | .unknownColor spec => "I don't know the color `" ++ spec ++ "`."
  | .outsidePalette place =>
    "The palette has no color at " ++ toString place.column ++ "," ++ toString place.row ++ "."

inductive RangeError where
  | levelNotPositive
  | levelTooGreat (limit : Nat)
  | sceneTooLarge (limit : Nat)
deriving DecidableEq, Repr

def RangeError.message : RangeError → String
  | .levelNotPositive => "Meta level must be positive!"
  | .levelTooGreat limit => "Meta level can't be greater than " ++ toString limit ++ "!"
  | .sceneTooLarge limit =>
    "The scene is too large to render (at most " ++ toString limit ++ " pixels per side)."

inductive LayoutError where
  | noLetters
  | unknownLetter (letter : Char)
  | tooLong (word : String)
deriving DecidableEq, Repr

def LayoutError.message : LayoutError → String
  | .noLetters => "Text tiles need at least one letter."
  | .unknownLetter letter => "I can't write the letter `" ++ letter.toString ++ "`."
  | .tooLong word => "The text `" ++ word ++ "` is too long to fit in a tile."

/-- An error that the author of a scene can mend. -/
inductive UserError where
  | unresolvedTile (name : String)
  | argument (cause : ArgumentError)
  | range (cause : RangeError)
  | assetMissing (what path : String)
  | layout (cause : LayoutError)
deriving DecidableEq, Repr

def UserError.message : UserError → String
  | .unresolvedTile name => "There's no tile called `" ++ name ++ "`."
  | .argument cause => cause.message
  | .range cause => cause.message
  | .assetMissing what path => "Files for `" ++ what ++ "` not found. Path: `" ++ path ++ "`"
  | .layout cause => cause.message

inductive FileError where
  | frameTooWide
  | frameTooTall
  | mixedFrameSizes
  | refused
deriving DecidableEq, Repr

def FileError.message : FileError → String
  | .frameTooWide => "frame too wide for GIF"
  | .frameTooTall => "frame too tall for GIF"
  | .mixedFrameSizes => "all frames must share one size"
  | .refused => "the file system refused"

inductive RenderError where
  | user (error : UserError)
  | file (error : FileError)
  | undecodable
deriving DecidableEq, Repr

/-- The sentence that stands for every internal failure. -/
def internalMessage : String := "An unexpected error occurred while rendering."

def RenderError.message : RenderError → String
  | .user error => error.message
  | .file _ => internalMessage
  | .undecodable => internalMessage

/-- What happened, internal failures included. -/
def RenderError.detail : RenderError → String
  | .user error => error.message
  | .file error => "I/O error: " ++ error.message
  | .undecodable => "image error: not a readable image"

end IsoScene
