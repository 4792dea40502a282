import IsoScene.Binary64.Decimal
import IsoScene.Datum

/-! # Reading JSON

`Json.read` reads a JSON text as a datum. The grammar is the standard one, without extensions:
no comments, no trailing commas, no control characters in strings, one value per text.

A string with half of a surrogate pair, and a number beyond all finite ones, are well formed; they
give an illegible datum. So does an object with such a string as a key.

The package followed here is `serde_json` 1.0: which texts it takes, and what they hold. Where a
fault stands and what is said about it are left out. Its bound on nesting is not needed: a catalog
has no deep values, and the package skips those under unknown keys at any depth.
-/

namespace IsoScene.Json

def isSpace (c : Char) : Bool := c == ' ' || c == '\t' || c == '\n' || c == '\r'

def skipSpace (s : List Char) : List Char := s.dropWhile isSpace

/-! ## Strings -/

/-- What a string is made of: characters, and sixteen-bit units from escapes. -/
inductive StringPart where
  | char (c : Char)
  | unit (n : Nat)

def escaped? : Char → Option Char
  | '"' => some '"'
  | '\\' => some '\\'
  | '/' => some '/'
  | 'b' => some '\x08'
  | 'f' => some '\x0c'
  | 'n' => some '\n'
  | 'r' => some '\r'
  | 't' => some '\t'
  | _ => none

def hexNumber? (digits : List Char) : Option Nat :=
  digits.foldlM (fun n c => (Text.hexValue? c).map (16 * n + ·)) 0

/-- Reads the rest of a string after its opening quote. `read` holds what has been read, last part
first. -/
def readParts (read : List StringPart) : List Char → Option (List StringPart × List Char)
  | [] => none
  | '"' :: rest => some (read.reverse, rest)
  | '\\' :: 'u' :: a :: b :: c :: d :: rest =>
    match hexNumber? [a, b, c, d] with
    | some n => readParts (.unit n :: read) rest
    | none => none
  | '\\' :: c :: rest =>
    match escaped? c with
    | some c => readParts (.char c :: read) rest
    | none => none
  | c :: rest => if c = '\\' ∨ c.toNat < 0x20 then none else readParts (.char c :: read) rest

/-- The character that a pair of surrogate units stands for. -/
def pairChar? (high low : Nat) : Option Char :=
  if 0xD800 ≤ high ∧ high < 0xDC00 ∧ 0xDC00 ≤ low ∧ low < 0xE000 then
    some (Char.ofNat (0x10000 + (high - 0xD800) * 0x400 + (low - 0xDC00)))
  else none

/-- Puts the parts of a string together. Half of a surrogate pair makes the string illegible.
`read` holds the characters so far, last one first. -/
def joinParts (read : List Char) : List StringPart → Option (List Char)
  | [] => some read.reverse
  | .char c :: rest => joinParts (c :: read) rest
  | .unit n :: rest =>
    if n < 0xD800 ∨ 0xE000 ≤ n then joinParts (Char.ofNat n :: read) rest
    else
      match rest with
      | .unit low :: rest =>
        match pairChar? n low with
        | some c => joinParts (c :: read) rest
        | none => none
      | _ => none

/-- Reads the rest of a string after its opening quote. -/
def readString (s : List Char) : Option (Option String × List Char) :=
  (readParts [] s).map fun (parts, rest) => ((joinParts [] parts).map String.ofList, rest)

/-! ## Numbers -/

def readDigits (s : List Char) : Option (List Char × List Char) :=
  let digits := s.takeWhile Char.isDigit
  if digits.isEmpty then none else some (digits, s.dropWhile Char.isDigit)

/-- Reads the digits in front of the point. A zero stands alone. -/
def readWhole (s : List Char) : Option (List Char × List Char) :=
  match readDigits s with
  | some ('0' :: _ :: _, _) => none
  | result => result

/-- Reads the point and the digits behind it, if there is a point. -/
def readPlaces : List Char → Option (Option (List Char) × List Char)
  | '.' :: rest => (readDigits rest).map fun (digits, rest) => (some digits, rest)
  | s => some (none, s)

/-- Reads an exponent, if there is one. -/
def readExponent (s : List Char) : Option (Option Int × List Char) :=
  match s with
  | c :: rest =>
    if c = 'e' ∨ c = 'E' then
      match rest with
      | '-' :: rest => (readDigits rest).map fun (digits, rest) =>
          (some (-(Text.natOfDigits digits : Int)), rest)
      | '+' :: rest => (readDigits rest).map fun (digits, rest) =>
          (some (Text.natOfDigits digits : Int), rest)
      | rest => (readDigits rest).map fun (digits, rest) =>
          (some (Text.natOfDigits digits : Int), rest)
    else some (none, s)
  | [] => some (none, s)

/-- A real number, unless it is beyond all finite ones. -/
def realDatum (x : Binary64) : Datum := if x.isFinite then .real x else .illegible

/-- The number of a sign, digits before and after the point, and an exponent. Without a point and
an exponent it is whole, save for the negative zero. -/
def numberDatum (negative : Bool) (whole : List Char) (places : Option (List Char))
    (exponent : Option Int) : Datum :=
  let n := Text.natOfDigits whole
  match places, exponent with
  | none, none =>
    if negative then if n = 0 then .real (Binary64.zero true) else .integer (-n) else .integer n
  | _, _ =>
    let places := places.getD []
    realDatum (Binary64.ofLiteral negative
      ⟨whole ++ places, exponent.getD 0 - places.length⟩)

def readNumber (s : List Char) : Option (Datum × List Char) := do
  let (negative, s) := match s with
    | '-' :: rest => (true, rest)
    | _ => (false, s)
  let (whole, s) ← readWhole s
  let (places, s) ← readPlaces s
  let (exponent, s) ← readExponent s
  some (numberDatum negative whole places exponent, s)

/-! ## Values -/

/-- Reads a word that stands for a value. -/
def readWord (word : String) (datum : Datum) (s : List Char) : Option (Datum × List Char) :=
  if word.toList.isPrefixOf s then some (datum, s.drop word.length) else none

/-- The object with some entries; one illegible key makes all of it illegible. -/
def objectDatum (entries : List (Option String × Datum)) : Datum :=
  match entries.mapM fun (key, datum) => key.map fun key => (key, datum) with
  | some entries => .table entries
  | none => .illegible

mutual

/-- Reads a value. The fuel bounds the number of nested calls. -/
def readValue : Nat → List Char → Option (Datum × List Char)
  | 0, _ => none
  | fuel + 1, s =>
    match skipSpace s with
    | '"' :: rest =>
      (readString rest).map fun (string, rest) =>
        ((string.map Datum.text).getD .illegible, rest)
    | '[' :: rest =>
      match skipSpace rest with
      | ']' :: rest => some (.list [], rest)
      | rest => readItems fuel [] rest
    | '{' :: rest =>
      match skipSpace rest with
      | '}' :: rest => some (.table [], rest)
      | rest => readEntries fuel [] rest
    | 't' :: rest => readWord "rue" (.boolean true) rest
    | 'f' :: rest => readWord "alse" (.boolean false) rest
    | 'n' :: rest => readWord "ull" .null rest
    | s => readNumber s

/-- Reads the items of a list up to its end. `read` holds the items so far, last one first. -/
def readItems : Nat → List Datum → List Char → Option (Datum × List Char)
  | 0, _, _ => none
  | fuel + 1, read, s =>
    match readValue fuel s with
    | none => none
    | some (item, rest) =>
      match skipSpace rest with
      | ',' :: rest => readItems fuel (item :: read) rest
      | ']' :: rest => some (.list (item :: read).reverse, rest)
      | _ => none

/-- Reads the entries of an object up to its end. `read` holds the entries so far, last one
first. -/
def readEntries : Nat → List (Option String × Datum) → List Char → Option (Datum × List Char)
  | 0, _, _ => none
  | fuel + 1, read, s =>
    match skipSpace s with
    | '"' :: rest =>
      match readString rest with
      | none => none
      | some (key, rest) =>
        match skipSpace rest with
        | ':' :: rest =>
          match readValue fuel rest with
          | none => none
          | some (value, rest) =>
            match skipSpace rest with
            | ',' :: rest => readEntries fuel ((key, value) :: read) rest
            | '}' :: rest => some (objectDatum ((key, value) :: read).reverse, rest)
            | _ => none
        | _ => none
    | _ => none

end

def read (s : List Char) : Option Datum :=
  match readValue (2 * s.length + 2) s with
  | some (datum, rest) => if (skipSpace rest).isEmpty then some datum else none
  | none => none

end IsoScene.Json
