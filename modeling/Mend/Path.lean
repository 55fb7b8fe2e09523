import Mend.Text.Quoted

/-!
# Paths

A path is a text with slashes between its parts. This module reads a path as a list of parts
(`Path.parts`), without touching a disk: repeated slashes and inner points count for nothing, and a
path that starts with a slash starts at the root.

- `Path.join`, `Path.parent?`, `Path.fileName?`, `Path.withExtension`: paths from paths;
- `Path.within?`: the parts of a path that stays below where it starts, and nothing for one that
  leaves it.
-/

namespace Mend

/-- A part of a path. -/
inductive PathPart where
  /-- The root, at the start of an absolute path. -/
  | root
  /-- A point at the start of a relative path. -/
  | current
  /-- Two points. -/
  | up
  /-- A name. -/
  | name (t : Text)
  deriving DecidableEq, Repr

namespace Path

/-- The separator of names. -/
def slash : Char := '/'

/-- Whether a path starts at the root. -/
def isAbsolute (path : Text) : Bool := path.head? = some slash

/-- The part that a piece between slashes is; empty pieces and points are none. -/
def part? (piece : Text) : Option PathPart :=
  if piece.isEmpty || piece = ['.'] then none
  else if piece = ['.', '.'] then some .up
  else some (.name piece)

/-- The parts of a path. -/
def parts (path : Text) : List PathPart :=
  let pieces := path.splitOn slash
  let first : List PathPart :=
    if isAbsolute path then [.root] else if pieces.head? = some ['.'] then [.current] else []
  first ++ pieces.filterMap part?

/-- The text of a part. -/
def partText : PathPart → Text
  | .root => [slash]
  | .current => ['.']
  | .up => ['.', '.']
  | .name t => t

/-- The plain path with the given parts. -/
def ofParts : List PathPart → Text
  | .root :: rest => slash :: Text.joinWith [slash] (rest.map partText)
  | ps => Text.joinWith [slash] (ps.map partText)

/-- A path seen from a base: itself if it is absolute, below the base otherwise. -/
def join (base path : Text) : Text :=
  if isAbsolute path then path
  else if base.isEmpty || base.getLast? = some slash then base ++ path
  else base ++ slash :: path

/-- A path without the slashes at its end; the root stays. -/
def trimRight (path : Text) : Text :=
  match (Text.dropEndWhile (· == slash) path), isAbsolute path with
  | [], true => [slash]
  | t, _ => t

/-- The length of what stands before the names of a path: its root, or a point at its start. -/
def headLength (path : Text) : Nat :=
  if isAbsolute path || (path.splitOn slash).head? = some ['.'] then 1 else 0

/-- The pieces of a path between slashes, after its head and without those at the end that are
empty or a point. -/
def bodyPieces (path : Text) : List Text :=
  (((path.drop (headLength path)).splitOn slash).reverse.dropWhile fun piece =>
    piece.isEmpty || piece = ['.']).reverse

/-- The path with the head of `path` and the given pieces, without those at the end that are empty
or a point. -/
def withBody (path : Text) (pieces : List Text) : Text :=
  path.take (headLength path) ++
    Text.joinWith [slash] ((pieces.reverse.dropWhile fun piece =>
      piece.isEmpty || piece = ['.']).reverse)

/-- The path above, as it is written; nothing for the root and the empty path. -/
def parent? (path : Text) : Option Text :=
  if (bodyPieces path).isEmpty then
    if isAbsolute path || path.isEmpty then none else some []
  else some (withBody path (bodyPieces path).dropLast)

/-- The last part, if it is a name. -/
def fileName? (path : Text) : Option Text :=
  match (parts path).getLast? with
  | some (.name t) => some t
  | _ => none

/-- A name without its extension: what stands before its last point, unless that is nothing. -/
def stem (name : Text) : Text :=
  match Text.cutLast? '.' name with
  | some (front, _) => if front.isEmpty then name else front
  | none => name

/-- The path with another extension on its last name. -/
def withExtension (path ext : Text) : Text :=
  match fileName? path with
  | none => path
  | some name =>
    withBody path ((bodyPieces path).dropLast ++ [stem name ++ '.' :: ext])

/-- Whether the parts of `base` start the parts of `path`. -/
def startsWith (path base : Text) : Bool := (parts base).isPrefixOf (parts path)

/-- The names below the base that a relative path leads to; nothing for a path that is absolute or
goes up. -/
def within? : List PathPart → Option (List Text)
  | [] => some []
  | .name t :: rest => (within? rest).map (t :: ·)
  | .current :: rest => within? rest
  | .up :: _ => none
  | .root :: _ => none

end Path

end Mend
