import IsoScene.Text.Blank

/-! # Escapes

A backslash takes the special meaning from the character after it. Splitting keeps the
backslashes, so a piece can be split again at a finer separator; `unescape` removes them at
the very end.

* `splitUnescaped`, `splitOnceUnescaped` — cut at separators that no backslash precedes.
* `unescape` — removes the escaping backslashes.
* `escape` — puts a backslash before every character that is to be taken literally.
-/

namespace IsoScene.Text

/-- Cuts at every separator that is not escaped. Escapes stay in the pieces. -/
def splitUnescaped (sep : Char) : List Char → List (List Char)
  | [] => [[]]
  | ['\\'] => [['\\']]
  | '\\' :: c :: rest => extendFirst ['\\', c] (splitUnescaped sep rest)
  | c :: rest =>
    if c = sep then [] :: splitUnescaped sep rest else extendFirst [c] (splitUnescaped sep rest)

/-- The text before and the text after the first separator that is not escaped, if there is
one. -/
def splitOnceUnescaped (sep : Char) : List Char → Option (List Char × List Char)
  | [] => none
  | ['\\'] => none
  | '\\' :: c :: rest =>
    (splitOnceUnescaped sep rest).map fun (before, after) => ('\\' :: c :: before, after)
  | c :: rest =>
    if c = sep then some ([], rest)
    else (splitOnceUnescaped sep rest).map fun (before, after) => (c :: before, after)

/-- Removes escaping backslashes. A backslash that ends the text stands for itself. -/
def unescape : List Char → List Char
  | [] => []
  | ['\\'] => ['\\']
  | '\\' :: c :: rest => c :: unescape rest
  | c :: rest => c :: unescape rest

/-- Puts a backslash before every special character. -/
def escape (special : Char → Bool) : List Char → List Char
  | [] => []
  | c :: rest => if special c then '\\' :: c :: escape special rest else c :: escape special rest

/-- What was escaped is read back, as long as the backslash itself counts as special. -/
theorem unescape_escape (special : Char → Bool) (h : special '\\' = true) (s : List Char) :
    unescape (escape special s) = s := by
  induction s with
  | nil => rfl
  | cons c rest ih =>
    rw [escape]
    split
    · simp [unescape, ih]
    · next hc =>
      have hne : c ≠ '\\' := fun e => hc (e ▸ h)
      cases hr : escape special rest with
      | nil => simp_all [unescape]
      | cons d others => rw [hr] at ih; simp_all [unescape]

end IsoScene.Text
