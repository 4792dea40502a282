import IsoScene.Binary64.Basic

/-! # Binary64 numbers in decimal text

`Binary64.ofDecimal?` reads a decimal literal: an optional sign, digits with or without a point
(at least one digit in all), and an optional exponent; or one of the words `inf`, `infinity` and
`nan` in any letter case. The number is the one nearest to the literal's exact value.
-/

namespace IsoScene.Binary64

/-- The parts of a decimal literal without its sign: it denotes `digits · 10^exponent`. -/
structure DecimalLiteral where
  digits : List Char
  exponent : Int
deriving DecidableEq, Repr

/-- Reads an exponent that ends the text: `e` or `E`, an optional sign and digits. -/
def readExponent : List Char → Option Int
  | [] => some 0
  | c :: rest =>
    if c = 'e' ∨ c = 'E' then
      match rest with
      | '+' :: digits => (Text.natOfDigits? digits).map Int.ofNat
      | '-' :: digits => (Text.natOfDigits? digits).map fun n => -Int.ofNat n
      | digits => (Text.natOfDigits? digits).map Int.ofNat
    else none

def readLiteral (s : List Char) : Option DecimalLiteral :=
  let whole := s.takeWhile Char.isDigit
  let rest := s.dropWhile Char.isDigit
  let (places, rest) := match rest with
    | '.' :: rest => (rest.takeWhile Char.isDigit, rest.dropWhile Char.isDigit)
    | _ => ([], rest)
  if whole.isEmpty && places.isEmpty then none
  else
    (readExponent rest).map fun exponent =>
      { digits := whole ++ places, exponent := exponent - places.length }

/-- The number nearest to a literal. Literals beyond every finite number, or nearer to zero
than to any other number, are decided by their count of digits alone. -/
def ofLiteral (negative : Bool) (literal : DecimalLiteral) : Binary64 :=
  let digits := literal.digits.dropWhile (· = '0')
  let size : Int := digits.length + literal.exponent
  if digits.isEmpty || size < -330 then zero negative
  else if 310 < size then infinity negative
  else
    let n := Text.natOfDigits digits
    ofRatio negative (n * tenTo literal.exponent) (tenTo (-literal.exponent))

/-- Reads a decimal literal or one of the words for the values that are not finite. -/
def ofDecimal? (s : List Char) : Option Binary64 :=
  let (negative, body) := match s with
    | '-' :: rest => (true, rest)
    | '+' :: rest => (false, rest)
    | _ => (false, s)
  let word := String.ofList (body.map Char.toLower)
  if word = "inf" ∨ word = "infinity" then some (infinity negative)
  else if word = "nan" then some (ofMagnitude negative (infiniteMagnitude + exponentWeight / 2))
  else (readLiteral body).map (ofLiteral negative)

end IsoScene.Binary64
