import Mend.Toml.Value

/-!
# Trees of tables

A TOML document defines its tables piece by piece: by headers, by longer headers that imply them,
and by dotted keys. Which of these may add to a table depends on how it was defined, so a document
is first collected as a tree that remembers this (`TomlNode`).

- A header defines a table once; it may define one that longer headers have implied.
- A dotted key adds to a table only where dotted keys have made it.
- Values, inline tables among them, are never added to.
-/

namespace Mend

/-- How a table came to be. -/
inductive TableOrigin where
  /-- By its own header. -/
  | header
  /-- By the header of a table inside of it. -/
  | implied
  /-- By a dotted key. -/
  | dotted
  deriving DecidableEq, Repr

/-- What stands under a name. -/
inductive TomlNode where
  /-- A finished value. -/
  | leaf (v : Toml)
  /-- A table. -/
  | table (origin : TableOrigin) (entries : List (Text × TomlNode))
  /-- An array of tables, latest first; none of them is missing its header. -/
  | tables (items : List (List (Text × TomlNode)))

/-- The entries of a table that is being collected. -/
abbrev TomlEntries := List (Text × TomlNode)

namespace TomlEntries

/-- The entries with another node under a name. -/
def set (name : Text) (node : TomlNode) : TomlEntries → TomlEntries
  | [] => [(name, node)]
  | (other, old) :: rest =>
    if other = name then (other, node) :: rest else (other, old) :: set name node rest

/-- The entries with one more, unless the name is taken. -/
def add? (name : Text) (node : TomlNode) (es : TomlEntries) : Option TomlEntries :=
  match es.lookup name with
  | some _ => none
  | none => some (es ++ [(name, node)])

/-- A value put where a dotted key leads: under `name` or further down under `path`. -/
def putKey (v : Toml) : Text → List Text → TomlEntries → Option TomlEntries
  | name, [], es => es.add? name (.leaf v)
  | name, next :: path, es =>
    match es.lookup name with
    | none => (putKey v next path []).map fun inner => es ++ [(name, .table .dotted inner)]
    | some (.table .header _) => none
    | some (.table origin inner) =>
      if path.isEmpty && origin ≠ .dotted then none
      else (putKey v next path inner).map fun inner => es.set name (.table origin inner)
    | some (.tables (last :: others)) =>
      if path.isEmpty then none
      else (putKey v next path last).map fun inner => es.set name (.tables (inner :: others))
    | some _ => none

/-- The entries changed where a header leads. A name that is new on the way is an implied table; in
an array of tables the way leads into the latest. -/
def within (f : TomlEntries → Option TomlEntries) : List Text → TomlEntries → Option TomlEntries
  | [], es => f es
  | name :: path, es =>
    match es.lookup name with
    | none => (within f path []).map fun inner => es ++ [(name, .table .implied inner)]
    | some (.table origin inner) =>
      (within f path inner).map fun inner => es.set name (.table origin inner)
    | some (.tables (last :: others)) =>
      (within f path last).map fun inner => es.set name (.tables (inner :: others))
    | some _ => none

/-- The entries with the table that a header names. -/
def openTable (name : Text) (es : TomlEntries) : Option TomlEntries :=
  match es.lookup name with
  | none => some (es ++ [(name, .table .header [])])
  | some (.table .implied inner) => some (es.set name (.table .header inner))
  | some _ => none

/-- The entries with one more table in the array that a header names. -/
def openItem (name : Text) (es : TomlEntries) : Option TomlEntries :=
  match es.lookup name with
  | none => some (es ++ [(name, .tables [[]])])
  | some (.tables items) => some (es.set name (.tables ([] :: items)))
  | some _ => none

end TomlEntries

mutual

/-- The value that a node has in the end. -/
def TomlNode.value : TomlNode → Toml
  | .leaf v => v
  | .table _ entries => .table (TomlNode.entryValues entries)
  | .tables items => .array (TomlNode.itemValues items).reverse

/-- The values of entries. -/
def TomlNode.entryValues : List (Text × TomlNode) → List (Text × Toml)
  | [] => []
  | (name, node) :: rest => (name, TomlNode.value node) :: TomlNode.entryValues rest

/-- The values of the tables in an array. -/
def TomlNode.itemValues : List (List (Text × TomlNode)) → List Toml
  | [] => []
  | entries :: rest => .table (TomlNode.entryValues entries) :: TomlNode.itemValues rest

end

end Mend
