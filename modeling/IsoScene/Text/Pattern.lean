import IsoScene.Text.Blank

/-! # Patterns

A pattern describes a text from left to right. It can match the start of a text in several ways,
and these have an order: a run prefers to take more characters, an option prefers to be taken, and
the earlier part of a pattern decides before the later one. The preferred way that lets the whole
pattern match is its match.

This is how the package `regex` 1 searches. Of its patterns there are only those that are built from
classes, runs, options and groups in sequence; all others are left out.

* `Pattern.ways` — all the ways to match the start of a text, the preferred one first.
* `Pattern.first?` — the match at the start of a text.
* `Pattern.occurrences` — the matches in a text, from left to right; none of them overlap.
-/

namespace IsoScene.Text

/-- What a text can look like. -/
inductive Pattern where
  /-- One character of a class. -/
  | char (isMember : Char → Bool)
  /-- One or more characters of a class. -/
  | run (isMember : Char → Bool)
  | option (p : Pattern)
  | sequence (p q : Pattern)
  /-- A part whose text is remembered under a number. -/
  | group (number : Nat) (p : Pattern)

/-- A way to match the start of a text: the text it takes, the groups in it, and what follows. -/
structure Match where
  taken : List Char
  groups : List (Nat × List Char)
  rest : List Char
deriving DecidableEq, Repr

namespace Match

def nothing (s : List Char) : Match := ⟨[], [], s⟩

/-- A way followed by a way to match its rest. -/
def followedBy (m n : Match) : Match := ⟨m.taken ++ n.taken, m.groups ++ n.groups, n.rest⟩

def named (number : Nat) (m : Match) : Match := { m with groups := (number, m.taken) :: m.groups }

/-- The text of a group, if the match went through it. -/
def group? (m : Match) (number : Nat) : Option (List Char) := m.groups.lookup number

end Match

namespace Pattern

/-- The ways to take one or more characters of a class, the longest first. -/
def runWays (isMember : Char → Bool) : List Char → List Match
  | [] => []
  | c :: rest =>
    if isMember c then
      (runWays isMember rest).map (Match.followedBy ⟨[c], [], rest⟩) ++ [⟨[c], [], rest⟩]
    else []

/-- The ways to match the start of a text, the preferred one first. -/
def ways : Pattern → List Char → List Match
  | .char _, [] => []
  | .char isMember, c :: rest => if isMember c then [⟨[c], [], rest⟩] else []
  | .run isMember, s => runWays isMember s
  | .option p, s => p.ways s ++ [.nothing s]
  | .sequence p q, s => (p.ways s).flatMap fun m => (q.ways m.rest).map m.followedBy
  | .group number p, s => (p.ways s).map (Match.named number)

def first? (p : Pattern) (s : List Char) : Option Match := (p.ways s).head?

/-- A match with the number of characters in front of it. -/
structure Occurrence where
  start : Nat
  found : Match

def Occurrence.stop (o : Occurrence) : Nat := o.start + o.found.taken.length

/-- The occurrences in the rest of a text, where `start` characters have been passed. The first
`skipped` characters of the rest belong to an earlier match. Matches that take nothing are passed
over. -/
def occurrencesFrom (p : Pattern) : (start skipped : Nat) → List Char → List Occurrence
  | _, _, [] => []
  | start, skipped + 1, _ :: rest => p.occurrencesFrom (start + 1) skipped rest
  | start, 0, c :: rest =>
    match p.first? (c :: rest) with
    | some m =>
      if m.taken.isEmpty then p.occurrencesFrom (start + 1) 0 rest
      else ⟨start, m⟩ :: p.occurrencesFrom (start + 1) (m.taken.length - 1) rest
    | none => p.occurrencesFrom (start + 1) 0 rest

/-- The matches in a text from left to right. Each is the leftmost that does not overlap the one
before. -/
def occurrences (p : Pattern) (s : List Char) : List Occurrence := p.occurrencesFrom 0 0 s

end Pattern

end IsoScene.Text
