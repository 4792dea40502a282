import IsoScene.Text.Blank

/-! # Paths

A path is a text whose parts are separated by slashes. Empty parts and points do not count, save
for a point that begins a relative path. Nothing here looks at files.

* `isAbsolute`, `join` — paths that start at the root, and paths below another path.
* `parent?`, `ancestors` — the directory that holds a path, and so on up to the top.
* `fileName?`, `stem?`, `suffix?` — the last part of a path, and its two halves at the last point.
-/

namespace IsoScene.Path

def isAbsolute (path : List Char) : Bool := path.head? == some '/'

/-- The path `part`, seen from `base`. An absolute path stays what it is. -/
def join (base part : List Char) : List Char :=
  if isAbsolute part || base.isEmpty then part
  else if base.getLast? = some '/' then base ++ part
  else base ++ '/' :: part

/-- The part at the end of a reversed path, and the reversed path in front of it. -/
def lastPart (reversed : List Char) : List Char × List Char :=
  ((reversed.takeWhile (· ≠ '/')).reverse, reversed.dropWhile (· ≠ '/'))

/-- Removes slashes and parts that do not count from the front of a reversed path. Slashes at the
root and a point at the very start are kept. -/
def dropIdle : List Char → List Char
  | [] => []
  | ['/'] => ['/']
  | ['.'] => ['.']
  | '/' :: rest => dropIdle rest
  | '.' :: '/' :: rest => dropIdle ('/' :: rest)
  | reversed => reversed

/-- The directory that holds a path. The root and the empty path have none. -/
def parent? (path : List Char) : Option (List Char) :=
  let reversed := dropIdle path.reverse
  if reversed = [] ∨ reversed = ['/'] then none
  else some (dropIdle (lastPart reversed).2).reverse

/-- Ancestors of a path, nearest first, at most as many as the bound. -/
def ancestorsUpTo : Nat → List Char → List (List Char)
  | 0, _ => []
  | bound + 1, path =>
    match parent? path with
    | none => []
    | some parent => parent :: ancestorsUpTo bound parent

def ancestors (path : List Char) : List (List Char) := ancestorsUpTo path.length path

/-- The last part of a path, unless that is the root or leads upwards. -/
def fileName? (path : List Char) : Option (List Char) :=
  let name := (lastPart (dropIdle path.reverse)).1
  if name = [] ∨ name = ['.'] ∨ name = ['.', '.'] then none else some name

/-- A name cut at its last point; a point that begins the name does not cut. -/
def cutName (name : List Char) : List Char × Option (List Char) :=
  let reversed := name.reverse
  let suffix := reversed.takeWhile (· ≠ '.')
  match reversed.dropWhile (· ≠ '.') with
  | [] => (name, none)
  | [_] => (name, none)
  | _ :: stem => (stem.reverse, some suffix.reverse)

def stem? (path : List Char) : Option (List Char) := (fileName? path).map fun n => (cutName n).1

def suffix? (path : List Char) : Option (List Char) := (fileName? path).bind fun n => (cutName n).2

end IsoScene.Path
