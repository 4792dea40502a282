/-! # Whole numbers in text

Decimal literals of whole numbers, read into a range. A literal outside the range is not read
at all.

* `natOfDigits?` — one or more decimal digits.
* `hexValue?` — one hexadecimal digit.
* `readNat` — an optional plus sign and digits, up to a limit.
* `readInt` — an optional sign and digits, within two limits.
-/

namespace IsoScene.Text

def digitValue (c : Char) : Nat := c.toNat - '0'.toNat

def natOfDigits (digits : List Char) : Nat :=
  digits.foldl (fun n c => 10 * n + digitValue c) 0

/-- The value of a hexadecimal digit of either letter case. -/
def hexValue? (c : Char) : Option Nat :=
  if '0' ≤ c ∧ c ≤ '9' then some (c.toNat - '0'.toNat)
  else if 'a' ≤ c ∧ c ≤ 'f' then some (c.toNat - 'a'.toNat + 10)
  else if 'A' ≤ c ∧ c ≤ 'F' then some (c.toNat - 'A'.toNat + 10)
  else none

/-- Reads a text that consists of decimal digits, at least one. -/
def natOfDigits? (s : List Char) : Option Nat :=
  if s.isEmpty || !s.all Char.isDigit then none else some (natOfDigits s)

/-- Reads digits, with or without a plus sign, if the value is at most `limit`. -/
def readNat (limit : Nat) (s : List Char) : Option Nat :=
  let digits := match s with
    | '+' :: rest => rest
    | _ => s
  (natOfDigits? digits).filter (· ≤ limit)

/-- Reads digits, with or without a sign, if the value lies between `least` and `greatest`. -/
def readInt (least greatest : Int) (s : List Char) : Option Int :=
  let value := match s with
    | '+' :: rest => (natOfDigits? rest).map Int.ofNat
    | '-' :: rest => (natOfDigits? rest).map fun n => -Int.ofNat n
    | _ => (natOfDigits? s).map Int.ofNat
  value.filter fun n => least ≤ n && n ≤ greatest

def maxNat32 : Nat := 4294967295

def minInt32 : Int := -2147483648
def maxInt32 : Int := 2147483647

def minInt64 : Int := -9223372036854775808
def maxInt64 : Int := 9223372036854775807

end IsoScene.Text
