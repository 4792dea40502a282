import IsoScene.Toml.Scalar
import IsoScene.Toml.Tables

/-! # Reading TOML

`Toml.read` reads a TOML text as a datum, a table. The text is first cut into keys with values and
headers, by its grammar alone; then `Toml.document?` puts the tables together.

This module, with `Toml.Scalar` and `Toml.Tables`, follows the package `toml` 0.8: which texts it
takes, the bound on nesting included, and what they hold. Where a fault stands and what is said
about it are left out.
-/

namespace IsoScene.Toml

/-- Values are nested less deeply than this, and paths are shorter. -/
def depthLimit : Nat := 80

def skipBlanks (s : List Char) : List Char := s.dropWhile isBlank

/-- Skips blanks, line ends and comments. A comment holds no control characters. -/
def skipFiller (inComment : Bool) : List Char → Option (List Char)
  | [] => some []
  | '\r' :: '\n' :: rest => skipFiller false rest
  | c :: rest =>
    if c = '\n' then skipFiller false rest
    else if inComment then if isPlain c then skipFiller true rest else none
    else if isBlank c then skipFiller false rest
    else if c = '#' then skipFiller true rest
    else some (c :: rest)

/-- Nothing but a comment follows on the line. -/
def lineEnds (s : List Char) : Bool :=
  let s := skipBlanks s
  s.isEmpty || s.head? == some '#' || startsLine s

/-! ## Keys -/

def isKeyChar (c : Char) : Bool := c.isAlphanum || c == '_' || c == '-'

/-- Reads one part of a key, in quotes or without. -/
def readKeyPart (s : List Char) : Option (String × List Char) :=
  match s with
  | '"' :: _ | '\'' :: _ => (readShortString s).map fun (key, rest) => (String.ofList key, rest)
  | _ =>
    let key := s.takeWhile isKeyChar
    if key.isEmpty then none else some (String.ofList key, s.dropWhile isKeyChar)

/-- Reads a key of several parts with points between them. `path` holds the parts so far, last one
first. The fuel bounds the number of parts. -/
def readKeyParts : Nat → List String → List Char → Option (List String × String × List Char)
  | 0, _, _ => none
  | fuel + 1, path, s => do
    let (key, s) ← readKeyPart (skipBlanks s)
    match skipBlanks s with
    | '.' :: rest => readKeyParts fuel (key :: path) rest
    | s => some (path.reverse, key, s)

def readKey (s : List Char) : Option (List String × String × List Char) :=
  readKeyParts (depthLimit - 1) [] s

/-! ## Values -/

mutual

/-- Reads a value, with at most `depth` levels of lists and tables inside each other. The fuel
bounds the number of nested calls. -/
def readValue : Nat → Nat → List Char → Option (Datum × List Char)
  | 0, _, _ => none
  | fuel + 1, depth, s =>
    match s with
    | '[' :: rest => if depth = 0 then none else readItems fuel (depth - 1) [] rest
    | '{' :: rest =>
      if depth = 0 then none
      else
        match skipBlanks rest with
        | '}' :: rest => some (.table [], rest)
        | rest => readPairs fuel (depth - 1) [] rest
    | _ => readScalar s

/-- Reads the items of a list up to its end; a comma may follow the last one. `read` holds the
items so far, last one first. -/
def readItems : Nat → Nat → List Datum → List Char → Option (Datum × List Char)
  | 0, _, _, _ => none
  | fuel + 1, depth, read, s =>
    match skipFiller false s with
    | none => none
    | some (']' :: rest) => some (.list read.reverse, rest)
    | some s =>
      match readValue fuel depth s with
      | none => none
      | some (item, rest) =>
        match skipFiller false rest with
        | some (',' :: rest) => readItems fuel depth (item :: read) rest
        | some (']' :: rest) => some (.list (item :: read).reverse, rest)
        | _ => none

/-- Reads the keys and values of a table up to its closing brace. `read` holds those so far, last
one first. -/
def readPairs : Nat → Nat → List Assignment → List Char → Option (Datum × List Char)
  | 0, _, _, _ => none
  | fuel + 1, depth, read, s =>
    match readKey s with
    | some (path, key, '=' :: rest) =>
      match readValue fuel depth (skipBlanks rest) with
      | none => none
      | some (datum, rest) =>
        match skipBlanks rest with
        | ',' :: rest => readPairs fuel depth (⟨path, key, datum⟩ :: read) rest
        | '}' :: rest =>
          (inlineTable? (⟨path, key, datum⟩ :: read).reverse).map fun table => (table, rest)
        | _ => none
    | _ => none

end

/-! ## Lines -/

inductive Line where
  | assignment (a : Assignment)
  | header (isRepeated : Bool) (path : List String) (key : String)

def readAssignment (s : List Char) : Option (Line × List Char) :=
  match readKey s with
  | some (path, key, '=' :: rest) =>
    (readValue (2 * s.length + 2) (depthLimit - 1) (skipBlanks rest)).map fun (datum, rest) =>
      (.assignment ⟨path, key, datum⟩, rest)
  | _ => none

def readLine (s : List Char) : Option (Line × List Char) :=
  match s with
  | '[' :: '[' :: rest =>
    match readKey rest with
    | some (path, key, ']' :: ']' :: rest) => some (.header true path key, rest)
    | _ => none
  | '[' :: rest =>
    match readKey rest with
    | some (path, key, ']' :: rest) => some (.header false path key, rest)
    | _ => none
  | _ => readAssignment s

/-- Reads the lines of a text. The fuel bounds their number. -/
def readLines : Nat → List Line → List Char → Option (List Line)
  | 0, _, _ => none
  | fuel + 1, read, s =>
    match skipFiller false s with
    | none => none
    | some [] => some read.reverse
    | some s =>
      match readLine s with
      | none => none
      | some (line, rest) => if lineEnds rest then readLines fuel (line :: read) rest else none

/-- The keys in front of the first header, and the sections that the headers begin. -/
def group : List Line → List Assignment × List Section
  | [] => ([], [])
  | .assignment a :: rest =>
    let (assignments, sections) := group rest
    (a :: assignments, sections)
  | .header isRepeated path key :: rest =>
    let (assignments, sections) := group rest
    ([], ⟨isRepeated, path, key, assignments⟩ :: sections)

def dropMark : List Char → List Char
  | '\uFEFF' :: rest => rest
  | s => s

def read (s : List Char) : Option Datum := do
  let s := dropMark s
  let lines ← readLines (s.length + 1) [] s
  let (assignments, sections) := group lines
  document? assignments sections

end IsoScene.Toml
