import IsoScene.Binary64.Decimal
import IsoScene.Datum

/-! # Scalars in TOML

Strings of four kinds, whole numbers in four bases, floating-point numbers, truth values, dates
and times. Each reader takes a scalar from the front of a text and returns the rest.

Dates and times are checked, and then read as empty tables: no configuration asks for one.
-/

namespace IsoScene.Toml

/-! ## Characters -/

def isBlank (c : Char) : Bool := c == ' ' || c == '\t'

/-- The characters that may stand in strings and comments as they are: all but the control
characters, of which the tab is allowed. -/
def isPlain (c : Char) : Bool := c == '\t' || (0x20 ≤ c.toNat && c.toNat ≠ 0x7F)

def startsLine : List Char → Bool
  | '\n' :: _ => true
  | '\r' :: '\n' :: _ => true
  | _ => false

def dropLineEnd : List Char → List Char
  | '\n' :: rest => rest
  | '\r' :: '\n' :: rest => rest
  | s => s

/-! ## Strings -/

def escaped? : Char → Option Char
  | 'b' => some '\x08'
  | 't' => some '\t'
  | 'n' => some '\n'
  | 'f' => some '\x0c'
  | 'r' => some '\r'
  | '"' => some '"'
  | '\\' => some '\\'
  | _ => none

def scalar? (digits : List Char) : Option Char :=
  match digits.foldlM (fun n c => (Text.hexValue? c).map (16 * n + ·)) 0 with
  | some n => if n.isValidChar then some (Char.ofNat n) else none
  | none => none

/-- Reads a string of one line with escapes, after its opening quote. `read` holds the characters
so far, last one first; so it does in the other readers of strings. -/
def readBasic (read : List Char) : List Char → Option (List Char × List Char)
  | [] => none
  | '"' :: rest => some (read.reverse, rest)
  | '\\' :: 'u' :: a :: b :: c :: d :: rest =>
    match scalar? [a, b, c, d] with
    | some c => readBasic (c :: read) rest
    | none => none
  | '\\' :: 'U' :: a :: b :: c :: d :: e :: f :: g :: h :: rest =>
    match scalar? [a, b, c, d, e, f, g, h] with
    | some c => readBasic (c :: read) rest
    | none => none
  | '\\' :: c :: rest =>
    match escaped? c with
    | some c => readBasic (c :: read) rest
    | none => none
  | c :: rest => if c ≠ '\\' ∧ isPlain c then readBasic (c :: read) rest else none

/-- Reads a string of one line without escapes, after its opening quote. -/
def readLiteral (read : List Char) : List Char → Option (List Char × List Char)
  | [] => none
  | '\'' :: rest => some (read.reverse, rest)
  | c :: rest => if isPlain c then readLiteral (c :: read) rest else none

/-- Ends a string of several lines after its three closing quotes: up to two more quotes that
follow belong to the string. -/
def closeLong (quote : Char) (read : List Char) : List Char → List Char × List Char
  | [] => (read.reverse, [])
  | c :: rest =>
    if c = quote then
      match rest with
      | [] => ((quote :: read).reverse, [])
      | d :: others =>
        if d = quote then ((quote :: quote :: read).reverse, others)
        else ((quote :: read).reverse, rest)
    else (read.reverse, c :: rest)

/-- Reads a string of several lines with escapes, after its opening quotes. A backslash at the end
of a line removes the blanks and line ends up to the next character; `inGap` says that this is
going on. -/
def readLongBasic (inGap : Bool) (read : List Char) : List Char → Option (List Char × List Char)
  | [] => none
  | '"' :: '"' :: '"' :: rest => some (closeLong '"' read rest)
  | '\\' :: 'u' :: a :: b :: c :: d :: rest =>
    match scalar? [a, b, c, d] with
    | some c => readLongBasic false (c :: read) rest
    | none => none
  | '\\' :: 'U' :: a :: b :: c :: d :: e :: f :: g :: h :: rest =>
    match scalar? [a, b, c, d, e, f, g, h] with
    | some c => readLongBasic false (c :: read) rest
    | none => none
  | '\\' :: c :: rest =>
    if startsLine ((c :: rest).dropWhile isBlank) then readLongBasic true read (c :: rest)
    else
      match escaped? c with
      | some c => readLongBasic false (c :: read) rest
      | none => none
  | '\r' :: '\n' :: rest => readLongBasic inGap (if inGap then read else '\n' :: read) rest
  | c :: rest =>
    if inGap && (isBlank c || c = '\n') then readLongBasic true read rest
    else if c ≠ '\\' ∧ (c = '\n' ∨ isPlain c) then readLongBasic false (c :: read) rest
    else none

def readLongLiteral (read : List Char) : List Char → Option (List Char × List Char)
  | [] => none
  | '\'' :: '\'' :: '\'' :: rest => some (closeLong '\'' read rest)
  | '\r' :: '\n' :: rest => readLongLiteral ('\n' :: read) rest
  | c :: rest => if c = '\n' ∨ isPlain c then readLongLiteral (c :: read) rest else none

def readShortString : List Char → Option (List Char × List Char)
  | '"' :: rest => readBasic [] rest
  | '\'' :: rest => readLiteral [] rest
  | _ => none

/-- Reads a string of any kind. A line end right after three opening quotes does not count. -/
def readString : List Char → Option (List Char × List Char)
  | '"' :: '"' :: '"' :: rest => readLongBasic false [] (dropLineEnd rest)
  | '\'' :: '\'' :: '\'' :: rest => readLongLiteral [] (dropLineEnd rest)
  | s => readShortString s

/-! ## Numbers -/

/-- Takes digits from the front of a text. An underscore may stand between two digits. -/
def moreDigits (isDigit : Char → Bool) : List Char → List Char × List Char
  | [] => ([], [])
  | '_' :: c :: rest =>
    if isDigit c then
      let (digits, rest) := moreDigits isDigit rest
      (c :: digits, rest)
    else ([], '_' :: c :: rest)
  | c :: rest =>
    if isDigit c then
      let (digits, rest) := moreDigits isDigit rest
      (c :: digits, rest)
    else ([], c :: rest)

def readDigits (isDigit : Char → Bool) : List Char → Option (List Char × List Char)
  | [] => none
  | c :: rest =>
    if isDigit c then
      let (digits, rest) := moreDigits isDigit rest
      some (c :: digits, rest)
    else none

/-- Reads the digits of a decimal number in front of the point. A zero stands alone. -/
def readWhole : List Char → Option (List Char × List Char)
  | '0' :: rest => some (['0'], rest)
  | s => readDigits Char.isDigit s

/-- Takes a sign from the front of a text; `true` stands for minus. -/
def readSign : List Char → Bool × List Char
  | '-' :: rest => (true, rest)
  | '+' :: rest => (false, rest)
  | s => (false, s)

def signed (negative : Bool) (n : Nat) : Int := if negative then -n else n

def integerDatum? (n : Int) : Option Datum :=
  if Text.minInt64 ≤ n ∧ n ≤ Text.maxInt64 then some (.integer n) else none

/-- A floating-point number. Only below zero may it lie beyond all finite ones. -/
def realDatum? (x : Binary64) : Option Datum :=
  if x = Binary64.infinity false then none else some (.real x)

def readExponent : List Char → Option (Option Int × List Char)
  | [] => some (none, [])
  | c :: rest =>
    if c = 'e' ∨ c = 'E' then
      let (negative, rest) := readSign rest
      (readDigits Char.isDigit rest).map fun (digits, rest) =>
        (some (signed negative (Text.natOfDigits digits)), rest)
    else some (none, c :: rest)

def readPlaces : List Char → Option (Option (List Char) × List Char)
  | '.' :: rest => (readDigits Char.isDigit rest).map fun (digits, rest) => (some digits, rest)
  | s => some (none, s)

/-- Reads a decimal number; a point or an exponent makes it a floating-point one. -/
def readDecimal (s : List Char) : Option (Datum × List Char) := do
  let (negative, s) := readSign s
  let (whole, s) ← readWhole s
  let (places, s) ← readPlaces s
  let (exponent, s) ← readExponent s
  let datum ← match places, exponent with
    | none, none => integerDatum? (signed negative (Text.natOfDigits whole))
    | _, _ =>
      let places := places.getD []
      realDatum? (Binary64.ofLiteral negative
        ⟨whole ++ places, exponent.getD 0 - places.length⟩)
  some (datum, s)

/-- Reads a whole number in another base, after the two characters that announce it. -/
def readBase (base : Nat) (s : List Char) : Option (Datum × List Char) := do
  let isDigit := fun c => match Text.hexValue? c with
    | some value => decide (value < base)
    | none => false
  let (digits, s) ← readDigits isDigit s
  let n := digits.foldl (fun n c => base * n + (Text.hexValue? c).getD 0) 0
  let datum ← integerDatum? n
  some (datum, s)

/-! ## Dates and times -/

def readField (count least greatest : Nat) (s : List Char) : Option (Nat × List Char) :=
  let digits := s.take count
  if digits.length = count ∧ digits.all Char.isDigit then
    let n := Text.natOfDigits digits
    if least ≤ n ∧ n ≤ greatest then some (n, s.drop count) else none
  else none

def readChar (c : Char) : List Char → Option (List Char)
  | [] => none
  | d :: rest => if d = c then some rest else none

def daysIn (year month : Nat) : Nat :=
  if month = 2 then
    if year % 4 = 0 ∧ (year % 100 ≠ 0 ∨ year % 400 = 0) then 29 else 28
  else if month = 4 ∨ month = 6 ∨ month = 9 ∨ month = 11 then 30
  else 31

def readDate (s : List Char) : Option (List Char) := do
  let (year, s) ← readField 4 0 9999 s
  let s ← readChar '-' s
  let (month, s) ← readField 2 1 12 s
  let s ← readChar '-' s
  let (_, s) ← readField 2 1 (daysIn year month) s
  some s

def readTime (s : List Char) : Option (List Char) := do
  let (_, s) ← readField 2 0 23 s
  let s ← readChar ':' s
  let (_, s) ← readField 2 0 59 s
  let s ← readChar ':' s
  let (_, s) ← readField 2 0 60 s
  match s with
  | '.' :: rest =>
    if (rest.takeWhile Char.isDigit).isEmpty then none else some (rest.dropWhile Char.isDigit)
  | _ => some s

def readOffset : List Char → Option (List Char)
  | [] => none
  | c :: s =>
    if c = 'Z' ∨ c = 'z' then some s
    else if c = '+' ∨ c = '-' then do
      let (_, s) ← readField 2 0 23 s
      let s ← readChar ':' s
      let (_, s) ← readField 2 0 59 s
      some s
    else none

/-- Takes the time behind a date, if there is one. -/
def dropTime (s : List Char) : List Char :=
  match s with
  | c :: rest =>
    if c = 'T' ∨ c = 't' ∨ c = ' ' then
      match readTime rest with
      | some rest => (readOffset rest).getD rest
      | none => s
    else s
  | [] => []

/-- Reads a date with or without a time, or a time. -/
def readMoment (s : List Char) : Option (Datum × List Char) :=
  match readDate s with
  | some rest => some (.table [], dropTime rest)
  | none => (readTime s).map fun rest => (.table [], rest)

/-! ## All scalars -/

/-- Takes a word from the front of a text. -/
def readWord (word : String) (datum : Datum) (s : List Char) : Option (Datum × List Char) :=
  if word.toList.isPrefixOf s then some (datum, s.drop word.length) else none

/-- Reads the words for infinity and for what is not a number, with or without a sign. -/
def readSpecial (s : List Char) : Option (Datum × List Char) :=
  let (negative, s) := readSign s
  (readWord "inf" (.real (Binary64.infinity negative)) s).or
    (readWord "nan" (.real Binary64.noValue) s)

def readNumber (s : List Char) : Option (Datum × List Char) :=
  match readMoment s with
  | some result => some result
  | none =>
    match s with
    | '0' :: 'x' :: rest => readBase 16 rest
    | '0' :: 'o' :: rest => readBase 8 rest
    | '0' :: 'b' :: rest => readBase 2 rest
    | _ => (readDecimal s).or (readSpecial s)

def readScalar (s : List Char) : Option (Datum × List Char) :=
  match s with
  | '"' :: _ | '\'' :: _ =>
    (readString s).map fun (text, rest) => (.text (String.ofList text), rest)
  | 't' :: _ => readWord "true" (.boolean true) s
  | 'f' :: _ => readWord "false" (.boolean false) s
  | _ => readNumber s

end IsoScene.Toml
