import IsoScene.Datum

/-! # Tables in TOML

A TOML text adds entries to tables one by one, in three ways: a header opens a table, the path in
front of its name implies tables, and a dotted key opens tables of its own. No table is opened
twice, and no way may add to what another one has finished. This module holds these rules.

* `Item` — a table under construction, with the way in which it came about.
* `assign` — one key with its value.
* `addSection` — a header with everything below it.
-/

namespace IsoScene.Toml

inductive Origin where
  | header
  | implied
  | dotted
deriving DecidableEq, Repr

/-- What a key stands for while the text is being read. -/
inductive Item where
  | value (datum : Datum)
  | table (origin : Origin) (entries : List (String × Item))
  /-- Tables under one repeated header. -/
  | tables (earlier : List (List (String × Item))) (last : List (String × Item))

abbrev Entries := List (String × Item)

/-- Sets a key, in its place if it is there and at the end if not. -/
def put (key : String) (item : Item) : Entries → Entries
  | [] => [(key, item)]
  | (other, old) :: rest =>
    if other = key then (key, item) :: rest else (other, old) :: put key item rest

/-- Sets a key that is not there yet, below a path of dotted keys. The table at the end of the
path has to be one that dotted keys opened. -/
def assign (key : String) (datum : Datum) : List String → Entries → Option Entries
  | [], entries =>
    match entries.lookup key with
    | none => some (put key (.value datum) entries)
    | some _ => none
  | step :: path, entries =>
    match entries.lookup step with
    | none => (assign key datum path []).map fun t => put step (.table .dotted t) entries
    | some (.table .dotted t) =>
      (assign key datum path t).map fun t => put step (.table .dotted t) entries
    | some (.table .implied t) =>
      if path.isEmpty then none
      else (assign key datum path t).map fun t => put step (.table .implied t) entries
    | some (.tables earlier last) =>
      if path.isEmpty then none
      else (assign key datum path last).map fun t => put step (.tables earlier t) entries
    | some (.table .header _) => none
    | some (.value _) => none

/-- A key with its value, below a path of dotted keys. -/
structure Assignment where
  path : List String
  key : String
  datum : Datum

def assignAll (assignments : List Assignment) (entries : Entries) : Option Entries :=
  assignments.foldlM (fun entries a => assign a.key a.datum a.path entries) entries

/-- Changes the table at the end of a path, which implies the tables that are not there. -/
def within (change : Entries → Option Entries) : List String → Entries → Option Entries
  | [], entries => change entries
  | step :: path, entries =>
    match entries.lookup step with
    | none => (within change path []).map fun t => put step (.table .implied t) entries
    | some (.table origin t) =>
      (within change path t).map fun t => put step (.table origin t) entries
    | some (.tables earlier last) =>
      (within change path last).map fun t => put step (.tables earlier t) entries
    | some (.value _) => none

/-- A header with the keys below it. -/
structure Section where
  isRepeated : Bool
  path : List String
  key : String
  assignments : List Assignment

/-- Opens the table of a header and fills it. -/
def openTable (s : Section) (parent : Entries) : Option Entries :=
  if s.isRepeated then
    match parent.lookup s.key with
    | none => (assignAll s.assignments []).map fun t => put s.key (.tables [] t) parent
    | some (.tables earlier last) =>
      (assignAll s.assignments []).map fun t =>
        put s.key (.tables (earlier ++ [last]) t) parent
    | some _ => none
  else
    match parent.lookup s.key with
    | none => (assignAll s.assignments []).map fun t => put s.key (.table .header t) parent
    | some (.table .implied old) =>
      (assignAll s.assignments old).map fun t => put s.key (.table .header t) parent
    | some _ => none

def addSection (entries : Entries) (s : Section) : Option Entries :=
  within (openTable s) s.path entries

mutual

def Item.datum : Item → Datum
  | .value datum => datum
  | .table _ entries => .table (entriesData entries)
  | .tables earlier last => .list (tablesData earlier ++ [.table (entriesData last)])

def entriesData : List (String × Item) → List (String × Datum)
  | [] => []
  | entry :: rest => entryDatum entry :: entriesData rest

def entryDatum : String × Item → String × Datum
  | (key, item) => (key, item.datum)

def tablesData : List (List (String × Item)) → List Datum
  | [] => []
  | entries :: rest => .table (entriesData entries) :: tablesData rest

end

/-- The table of some keys, as it stands between braces. -/
def inlineTable? (assignments : List Assignment) : Option Datum :=
  (assignAll assignments []).map fun entries => .table (entriesData entries)

/-- The table of a whole text: the keys before the first header, and the sections. -/
def document? (assignments : List Assignment) (sections : List Section) : Option Datum := do
  let entries ← assignAll assignments []
  let entries ← sections.foldlM addSection entries
  some (.table (entriesData entries))

end IsoScene.Toml
