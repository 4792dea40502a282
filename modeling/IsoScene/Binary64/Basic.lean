import IsoScene.Binary64.Power
import IsoScene.Text.Integer

/-! # Binary64 numbers

Coordinates are 64-bit binary floating-point numbers, kept as their bit patterns, so that every
pattern is a value of its own: both zeros, both infinities, and each of the patterns that are
not a number.

* `Binary64.value` — what a pattern denotes, exactly.
* `Binary64.ofRatio` — the number nearest to a fraction; a tie goes to the even neighbour.
* `add`, `sub`, `mul`, `div` — the exact result, rounded once.
* `Binary64.key` — the position of a pattern in the total order of all patterns.
* `floor64`, `side` — whole numbers from coordinates, clamped to their ranges.
-/

namespace IsoScene

/-- A 64-bit binary floating-point number, as its bit pattern: a sign bit, eleven bits of
exponent and fifty-two bits of fraction. -/
structure Binary64 where
  bits : UInt64
deriving DecidableEq, Inhabited, Repr

namespace Binary64

/-- What a bit pattern denotes. A finite number is `±significand · 2^exponent`. -/
inductive Value where
  | notANumber
  | infinite (negative : Bool)
  | finite (negative : Bool) (significand : Nat) (exponent : Int)
deriving DecidableEq, Repr

/-! ## Reading the bits -/

def signWeight : Nat := 0x8000000000000000

/-- The weight of the last bit of the exponent, which is also that of the leading bit of a
significand. -/
def exponentWeight : Nat := 0x10000000000000

def negative (x : Binary64) : Bool := signWeight ≤ x.bits.toNat

def magnitude (x : Binary64) : Nat := x.bits.toNat % signWeight

def exponentField (x : Binary64) : Nat := x.magnitude / exponentWeight

def fraction (x : Binary64) : Nat := x.bits.toNat % exponentWeight

/-- The magnitude bits of the infinities. Greater magnitudes are not numbers. -/
def infiniteMagnitude : Nat := 2047 * exponentWeight

def isNaN (x : Binary64) : Bool := infiniteMagnitude < x.magnitude

def isFinite (x : Binary64) : Bool := x.magnitude < infiniteMagnitude

def leastExponent : Int := -1074

def value (x : Binary64) : Value :=
  if x.isNaN then .notANumber
  else if x.magnitude = infiniteMagnitude then .infinite x.negative
  else if x.exponentField = 0 then .finite x.negative x.fraction leastExponent
  else
    .finite x.negative (exponentWeight + x.fraction)
      (leastExponent + (x.exponentField - 1 : Nat))

/-! ## Building bit patterns -/

def ofMagnitude (negative : Bool) (magnitude : Nat) : Binary64 :=
  ⟨UInt64.ofNat (if negative then signWeight + magnitude else magnitude)⟩

def zero (negative : Bool) : Binary64 := ofMagnitude negative 0

def infinity (negative : Bool) : Binary64 := ofMagnitude negative infiniteMagnitude

/-- The result of an operation that has none: the quiet pattern with the sign bit set. -/
def noValue : Binary64 := ⟨0xFFF8000000000000⟩

/-- A pattern that is not a number, with its quiet bit set. -/
def quiet (x : Binary64) : Binary64 := ⟨x.bits ||| 0x0008000000000000⟩

/-! ## Rounding -/

/-- The whole number nearest to `num / den`; a tie goes to the even neighbour. -/
def roundQuotient (num den : Nat) : Nat :=
  let quotient := num / den
  let twice := 2 * (num % den)
  if den < twice || (twice == den && quotient % 2 == 1) then quotient + 1 else quotient

/-- The fraction `num / den / 2^exponent` as a pair of natural numbers. -/
def scaleDown (num den : Nat) (exponent : Int) : Nat × Nat :=
  (num * twoTo (-exponent), den * twoTo exponent)

/-- The exponent of the last bit that a number near `num / den` can have: the one that leaves
fifty-three bits before the point, but never less than `leastExponent`. -/
def lastBit (num den : Nat) : Int :=
  let guess : Int := (num.log2 : Int) - (den.log2 : Int) - 52
  let (n, d) := scaleDown num den guess
  max leastExponent (if n / d < exponentWeight then guess - 1 else guess)

/-- The number nearest to `±num / den`, where neither is zero. Beyond the greatest finite
number that is an infinity. -/
def ofPositiveRatio (negative : Bool) (num den : Nat) : Binary64 :=
  let exponent := lastBit num den
  let (n, d) := scaleDown num den exponent
  let significand := roundQuotient n d
  let bits := (exponent - leastExponent).toNat * exponentWeight + significand
  ofMagnitude negative (min bits infiniteMagnitude)

/-- The number nearest to `±num / den`; a tie goes to the even neighbour. -/
def ofRatio (negative : Bool) (num den : Nat) : Binary64 :=
  if num = 0 then zero negative else ofPositiveRatio negative num den

/-- The number nearest to `n · 2^exponent`; zero keeps the given sign. -/
def ofScaledInt (zeroNegative : Bool) (n : Int) (exponent : Int) : Binary64 :=
  if n = 0 then zero zeroNegative
  else ofRatio (n < 0) (n.natAbs * twoTo exponent) (twoTo (-exponent))

def ofInt (n : Int) : Binary64 := ofScaledInt false n 0

def ofNat (n : Nat) : Binary64 := ofInt n

/-! ## Arithmetic -/

def Value.aligned (negative : Bool) (significand : Nat) (exponent target : Int) : Int :=
  let shifted : Int := significand * twoTo (exponent - target)
  if negative then -shifted else shifted

/-- The rounded sum of two values that are numbers. A sum of zero is negative only if both
summands are. -/
def addValues : Value → Value → Binary64
  | .notANumber, _ => noValue
  | _, .notANumber => noValue
  | .infinite s, .infinite t => if s = t then infinity s else noValue
  | .infinite s, .finite .. => infinity s
  | .finite .., .infinite t => infinity t
  | .finite s m p, .finite t n q =>
    let target := min p q
    ofScaledInt (s && t) (Value.aligned s m p target + Value.aligned t n q target) target

def Value.neg : Value → Value
  | .notANumber => .notANumber
  | .infinite s => .infinite !s
  | .finite s m e => .finite (!s) m e

def mulValues : Value → Value → Binary64
  | .notANumber, _ => noValue
  | _, .notANumber => noValue
  | .infinite s, .infinite t => infinity (s != t)
  | .infinite s, .finite t n _ => if n = 0 then noValue else infinity (s != t)
  | .finite s m _, .infinite t => if m = 0 then noValue else infinity (s != t)
  | .finite s m p, .finite t n q =>
    let exponent := p + q
    ofRatio (s != t) (m * n * twoTo exponent) (twoTo (-exponent))

def divValues : Value → Value → Binary64
  | .notANumber, _ => noValue
  | _, .notANumber => noValue
  | .infinite _, .infinite _ => noValue
  | .infinite s, .finite t _ _ => infinity (s != t)
  | .finite s _ _, .infinite t => zero (s != t)
  | .finite s m p, .finite t n q =>
    if n = 0 then if m = 0 then noValue else infinity (s != t)
    else
      let exponent := p - q
      ofRatio (s != t) (m * twoTo exponent) (n * twoTo (-exponent))

/-- Hands on the first operand that is not a number; otherwise operates on the values. -/
def operate (op : Value → Value → Binary64) (x y : Binary64) : Binary64 :=
  if x.isNaN then x.quiet else if y.isNaN then y.quiet else op x.value y.value

def add (x y : Binary64) : Binary64 := operate addValues x y

def sub (x y : Binary64) : Binary64 := operate (fun a b => addValues a b.neg) x y

def mul (x y : Binary64) : Binary64 := operate mulValues x y

def div (x y : Binary64) : Binary64 := operate divValues x y

instance : Add Binary64 := ⟨add⟩
instance : Sub Binary64 := ⟨sub⟩
instance : Mul Binary64 := ⟨mul⟩
instance : Div Binary64 := ⟨div⟩

/-! ## Order -/

/-- The position of a pattern in the total order of all patterns: negative patterns that are
not numbers, negative infinity, the negative numbers, negative zero, zero, the positive
numbers, infinity, positive patterns that are not numbers. -/
def key (x : Binary64) : Int :=
  if x.negative then -(x.magnitude : Int) - 1 else x.magnitude

/-- The greater of two numbers; a pattern that is not a number gives way to the other. -/
def maximum (x y : Binary64) : Binary64 :=
  if x.isNaN then y else if y.isNaN then x else if x.key < y.key then y else x

/-- The lesser of two numbers; a pattern that is not a number gives way to the other. -/
def minimum (x y : Binary64) : Binary64 :=
  if x.isNaN then y else if y.isNaN then x else if y.key < x.key then y else x

/-! ## Whole numbers -/

/-- The greatest whole number that is not above `±significand · 2^exponent`. -/
def floorScaled (negative : Bool) (significand : Nat) (exponent : Int) : Int :=
  (Value.aligned negative significand exponent (min exponent 0)).fdiv (twoTo (-exponent))

/-- The floor of a number, clamped to the 64-bit integers; zero for what is not a number. -/
def floor64 (x : Binary64) : Int :=
  match x.value with
  | .notANumber => 0
  | .infinite s => if s then Text.minInt64 else Text.maxInt64
  | .finite s m e => max Text.minInt64 (min Text.maxInt64 (floorScaled s m e))

/-- The number of pixels that cover a length: the ceiling, at least one and at most the
greatest 32-bit number; one for what is not a number. -/
def side (x : Binary64) : Nat :=
  match x.value with
  | .notANumber => 1
  | .infinite s => if s then 1 else Text.maxNat32
  | .finite s m e => max 1 (min Text.maxNat32 (-floorScaled (!s) m e).toNat)

end Binary64

end IsoScene
