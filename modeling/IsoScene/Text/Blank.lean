/-! # Blanks, words and lines

Scene text is cut into lines at line feeds and into words at blanks. Everything works on
`List Char`, so that each function is a structural recursion.

* `isBlank` — the characters that separate words.
* `trim` — a text without the blanks at its two ends.
* `words` — the maximal runs of characters that are not blank.
* `pieces`, `lines` — the text between separators, and between line feeds.
-/

namespace IsoScene.Text

/-- The characters with the Unicode property `White_Space`. -/
def isBlank (c : Char) : Bool :=
  let n := c.toNat
  (9 ≤ n && n ≤ 13) || n == 0x20 || n == 0x85 || n == 0xA0 || n == 0x1680 ||
    (0x2000 ≤ n && n ≤ 0x200A) || n == 0x2028 || n == 0x2029 || n == 0x202F || n == 0x205F ||
    n == 0x3000

/-- The blanks of core are blanks here. -/
theorem isBlank_of_isWhitespace {c : Char} (h : c.isWhitespace = true) : isBlank c = true := by
  simp only [Char.isWhitespace, Bool.or_eq_true, decide_eq_true_eq] at h
  rcases h with ((rfl | rfl) | rfl) | rfl <;> rfl

def trim (s : List Char) : List Char :=
  ((s.dropWhile isBlank).reverse.dropWhile isBlank).reverse

/-- Puts characters in front of the first piece. -/
def extendFirst (front : List Char) : List (List Char) → List (List Char)
  | [] => [front]
  | piece :: rest => (front ++ piece) :: rest

/-- The maximal runs of characters that are not blank, in order. -/
def words : List Char → List (List Char)
  | [] => []
  | c :: rest =>
    if isBlank c then words rest
    else
      match rest with
      | [] => [[c]]
      | d :: _ => if isBlank d then [c] :: words rest else extendFirst [c] (words rest)

/-- The texts between the occurrences of a separator; there is always at least one. -/
def pieces (sep : Char) : List Char → List (List Char)
  | [] => [[]]
  | c :: rest => if c = sep then [] :: pieces sep rest else extendFirst [c] (pieces sep rest)

def dropReturn (line : List Char) : List Char :=
  if line.getLast? = some '\r' then line.dropLast else line

/-- The lines of a text. A carriage return in front of the line feed belongs to the line end. -/
def lines (s : List Char) : List (List Char) :=
  (pieces '\n' s).map dropReturn

/-- Texts put one after another with a separator between neighbours. -/
def joinWith (sep : Char) : List (List Char) → List Char
  | [] => []
  | [piece] => piece
  | piece :: rest => piece ++ sep :: joinWith sep rest

theorem joinWith_cons_cons (sep : Char) (part next : List Char) (rest : List (List Char)) :
    joinWith sep (part :: next :: rest) = part ++ sep :: joinWith sep (next :: rest) := rfl

@[simp] theorem extendFirst_cons (front piece : List Char) (rest : List (List Char)) :
    extendFirst front (piece :: rest) = (front ++ piece) :: rest := rfl

theorem pieces_ne_nil (sep : Char) (s : List Char) : pieces sep s ≠ [] := by
  cases s with
  | nil => simp [pieces]
  | cons c rest =>
    rw [pieces]
    split
    · simp
    · cases pieces sep rest <;> simp [extendFirst]

/-- Cutting loses nothing: joining the pieces gives the text back. -/
theorem joinWith_pieces (sep : Char) (s : List Char) : joinWith sep (pieces sep s) = s := by
  induction s with
  | nil => rfl
  | cons c rest ih =>
    rw [pieces]
    cases h : pieces sep rest with
    | nil => exact absurd h (pieces_ne_nil sep rest)
    | cons piece others =>
      rw [h] at ih
      split
      · next hc => subst hc; simp [joinWith, ih]
      · cases others with
        | nil => simpa [joinWith] using ih
        | cons next others => simpa [joinWith] using ih

end IsoScene.Text
