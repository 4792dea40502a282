import IsoScene.Binary64.Decimal

/-! # The shortest text of a number

`Binary64.shortest` finds the fewest decimal digits that still single out a finite number, and
among those the digits nearest to it. `Binary64.text` writes them: positionally where the point
stands at most sixteen digits to the right of the first digit or at most four zeros before it,
and with an exponent otherwise.
-/

namespace IsoScene.Binary64

/-- Decimal digits with the place of the point: the number is `0.d₁d₂… · 10^point`. -/
structure Decimal where
  digits : List Char
  point : Int
deriving DecidableEq, Repr

/-- The reals that round to a number, as whole multiples of a power of two. The ends belong
to the interval iff the significand is even. -/
structure Interval where
  low : Nat
  centre : Nat
  high : Nat
  exponent : Int
  closed : Bool

/-- The interval of the positive number `significand · 2^exponent`. Below a power of two the
neighbour is only half as far away. -/
def Interval.around (significand : Nat) (exponent : Int) : Interval where
  low := 4 * significand - if significand = exponentWeight ∧ leastExponent < exponent then 1 else 2
  centre := 4 * significand
  high := 4 * significand + 2
  exponent := exponent - 2
  closed := significand % 2 == 0

/-- `n · 2^exponent / 10^grid` as a pair of natural numbers. -/
def onGrid (n : Nat) (exponent grid : Int) : Nat × Nat :=
  (n * twoTo exponent * tenTo (-grid), twoTo (-exponent) * tenTo grid)

def Interval.contains (i : Interval) (d : Nat) (grid : Int) : Bool :=
  let (low, den) := onGrid i.low i.exponent grid
  let (high, _) := onGrid i.high i.exponent grid
  if i.closed then low ≤ d * den && d * den ≤ high else low < d * den && d * den < high

/-- Of the two points of a grid next to the centre, the one in the interval; if both are, the
nearer, and the even one of two equally near. -/
def Interval.nearest? (i : Interval) (grid : Int) : Option Nat :=
  let (n, den) := onGrid i.centre i.exponent grid
  let below := n / den
  match i.contains below grid, i.contains (below + 1) grid with
  | true, true => some (roundQuotient n den)
  | true, false => some below
  | false, true => some (below + 1)
  | false, false => none

/-- The exponent `k` with `10^k ≤ n · 2^exponent < 10^(k+1)`, for a positive `n`. -/
def decimalExponent (n : Nat) (exponent : Int) : Int :=
  let guess : Int := (((n.log2 : Int) + exponent) * 30103).fdiv 100000 - 1
  let raise (k : Int) : Int :=
    let (num, den) := onGrid n exponent (k + 1)
    if den ≤ num then k + 1 else k
  raise (raise (raise guess))

def Interval.search (i : Interval) : List Int → Option (Nat × Int)
  | [] => none
  | grid :: finer =>
    match i.nearest? grid with
    | some d => some (d, grid)
    | none => i.search finer

def stripZeros (digits : List Char) : List Char :=
  (digits.reverse.dropWhile (· = '0')).reverse

/-- The fewest digits that single out the positive number `significand · 2^exponent`. Seventeen
digits always do. -/
def shortest (significand : Nat) (exponent : Int) : Decimal :=
  let interval := Interval.around significand exponent
  let first := decimalExponent significand exponent
  let grids := (List.range 17).map fun (n : Nat) => first - n
  match interval.search grids with
  | some (d, grid) =>
    let digits := (toString d).toList
    { digits := stripZeros digits, point := grid + digits.length }
  | none => { digits := [], point := 0 }

def exponentText (exponent : Int) : List Char :=
  'e' :: if 0 ≤ exponent then '+' :: (toString exponent).toList else (toString exponent).toList

/-- Writes digits with a point or an exponent. There is always a digit after a point, and a
whole number in positional form ends in `.0`. -/
def Decimal.text (d : Decimal) : List Char :=
  let count : Int := d.digits.length
  let point := d.point
  if count ≤ point ∧ point ≤ 16 then
    d.digits ++ List.replicate (point - count).toNat '0' ++ ['.', '0']
  else if 0 < point ∧ point ≤ 16 then
    d.digits.take point.toNat ++ '.' :: d.digits.drop point.toNat
  else if -5 < point ∧ point ≤ 0 then
    ['0', '.'] ++ List.replicate (-point).toNat '0' ++ d.digits
  else
    let exponent := exponentText (point - 1)
    match d.digits with
    | [] => exponent
    | [c] => c :: exponent
    | c :: rest => c :: '.' :: rest ++ exponent

/-- The shortest text that reads back as the number, if it is finite. -/
def text? (x : Binary64) : Option (List Char) :=
  match x.value with
  | .finite s m e =>
    let body := if m = 0 then ['0', '.', '0'] else (shortest m e).text
    some (if s then '-' :: body else body)
  | _ => none

end IsoScene.Binary64
