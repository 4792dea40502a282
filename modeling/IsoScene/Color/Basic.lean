import IsoScene.Text.Integer

/-! # Colours

A colour has red, green, blue and alpha channels of eight bits. Its text is `transparent`, or a
`#` with three, four, six or eight hexadecimal digits; single digits are doubled and a missing
alpha channel is opaque.

* `Rgba` — colours, with channel-wise operations.
* `Rgba.parse` — reads a colour, or says what is wrong with the text.
* `Rgba.hex` — the eight digits of a colour.
-/

namespace IsoScene

structure Rgba where
  red : UInt8
  green : UInt8
  blue : UInt8
  alpha : UInt8
deriving DecidableEq, Repr, Hashable

namespace Rgba

def transparent : Rgba := ⟨0, 0, 0, 0⟩

instance : Inhabited Rgba := ⟨transparent⟩

def isVisible (c : Rgba) : Bool := c.alpha != 0

def map (f : UInt8 → UInt8) (c : Rgba) : Rgba := ⟨f c.red, f c.green, f c.blue, f c.alpha⟩

def zipWith (f : UInt8 → UInt8 → UInt8) (c d : Rgba) : Rgba :=
  ⟨f c.red d.red, f c.green d.green, f c.blue d.blue, f c.alpha d.alpha⟩

/-- The product of two channels, where 255 stands for one. The fraction is dropped. -/
def scaleChannel (a b : UInt8) : UInt8 := UInt8.ofNat (a.toNat * b.toNat / 255)

def multiply (c d : Rgba) : Rgba := zipWith scaleChannel c d

/-- A colour with every channel multiplied by the same strength. -/
def scale (strength : UInt8) (c : Rgba) : Rgba := c.map (scaleChannel strength)

end Rgba

inductive ColorError where
  | empty
  | missingHash
  | invalidLength (count : Nat)
  | invalidHex (c : Char)
deriving DecidableEq, Repr

def ColorError.message : ColorError → String
  | .empty => "empty color string"
  | .missingHash => "color must start with '#'"
  | .invalidLength count =>
    "invalid color length " ++ toString count ++ ", expected 3, 4, 6, or 8"
  | .invalidHex c => "invalid hex character '" ++ c.toString ++ "'"

namespace Rgba

/-- The values of hexadecimal digits, or the first character that is none. -/
def hexValues : List Char → Except Char (List Nat)
  | [] => .ok []
  | c :: rest =>
    match Text.hexValue? c with
    | none => .error c
    | some v => (hexValues rest).map (v :: ·)

/-- A channel from one digit, doubled. -/
def ofDigit (d : Nat) : UInt8 := UInt8.ofNat (17 * d)

def ofDigits (d e : Nat) : UInt8 := UInt8.ofNat (16 * d + e)

/-- A colour from its digits: three or four of them are doubled, six or eight are pairs. -/
def ofHexValues : List Nat → Option Rgba
  | [r, g, b] => some ⟨ofDigit r, ofDigit g, ofDigit b, 255⟩
  | [r, g, b, a] => some ⟨ofDigit r, ofDigit g, ofDigit b, ofDigit a⟩
  | [r, r', g, g', b, b'] => some ⟨ofDigits r r', ofDigits g g', ofDigits b b', 255⟩
  | [r, r', g, g', b, b', a, a'] =>
    some ⟨ofDigits r r', ofDigits g g', ofDigits b b', ofDigits a a'⟩
  | _ => none

/-- The text equals a lower-case word up to the case of ASCII letters. -/
def isWord (word : String) (s : List Char) : Bool := s.map Char.toLower == word.toList

def parse (s : List Char) : Except ColorError Rgba :=
  if s.isEmpty then .error .empty
  else if isWord "transparent" s then .ok transparent
  else
    match s with
    | '#' :: digits =>
      match hexValues digits with
      | .error c => .error (.invalidHex c)
      | .ok values =>
        match ofHexValues values with
        | some color => .ok color
        | none => .error (.invalidLength values.length)
    | _ => .error .missingHash

/-- The lower-case hexadecimal digit of a value below sixteen. -/
def hexDigit (n : Nat) : Char :=
  if n < 10 then Char.ofNat ('0'.toNat + n) else Char.ofNat ('a'.toNat + (n - 10))

def channelHex (channel : UInt8) : List Char :=
  [hexDigit (channel.toNat / 16), hexDigit (channel.toNat % 16)]

def hex (c : Rgba) : List Char :=
  channelHex c.red ++ channelHex c.green ++ channelHex c.blue ++ channelHex c.alpha

end Rgba

end IsoScene
