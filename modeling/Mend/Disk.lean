import Mend.Lookup
import Mend.Path
import Mend.Text.Utf8

/-!
# Disks

A disk is a tree of directories and regular files, without links. A place on it is the list of names
that lead there from the root (`Location`), and the tree is kept as a list of places with what
stands there, so that what an operation leaves alone is a statement about `Disk.node?`.

A path given as text is walked name by name (`Disk.walk`): every name but the last must lead to a
directory, two points lead up, and a slash at the end asks for a directory. The operations answer
the errors that the walk or the operation itself meets (`DiskError`).
-/

namespace Mend

/-- The names that lead to a place from the root. -/
abbrev Location := List Text

/-- What stands at a place. -/
inductive DiskNode where
  /-- A regular file with its bytes. -/
  | file (data : ByteArray)
  /-- A directory. -/
  | dir
  deriving DecidableEq

/-- Why an operation on the disk fails. -/
inductive DiskError where
  /-- There is no such file or directory. -/
  | notFound
  /-- The operation is not allowed. -/
  | denied
  /-- Something stands there already. -/
  | occupied
  /-- A file stands where a directory is needed. -/
  | notDirectory
  /-- A directory stands where a file is needed. -/
  | isDirectory
  /-- A name has more than 255 bytes, or a path more than 4095. -/
  | nameTooLong
  /-- The path holds a NUL. -/
  | nulInPath
  /-- The bytes are not a text. -/
  | notText
  deriving DecidableEq, Repr

/-- What an error says. -/
def DiskError.reason : DiskError → Text
  | notFound => "No such file or directory".toList
  | denied => "Permission denied".toList
  | occupied => "File exists".toList
  | notDirectory => "Not a directory".toList
  | isDirectory => "Is a directory".toList
  | nameTooLong => "File name too long".toList
  | nulInPath => "file name contained an unexpected NUL byte".toList
  | notText => "stream did not contain valid UTF-8".toList

/-- The number of an error, if it has one. -/
def DiskError.number? : DiskError → Option Nat
  | notFound => some 2
  | denied => some 13
  | occupied => some 17
  | notDirectory => some 20
  | isDirectory => some 21
  | nameTooLong => some 36
  | nulInPath => none
  | notText => none

/-- What an error says, with its number. -/
def DiskError.message (e : DiskError) : Text :=
  match e.number? with
  | some n => e.reason ++ " (os error ".toList ++ Text.ofNat n ++ [')']
  | none => e.reason

/-- A tree of directories and files, and the directory that relative paths start from. -/
structure Disk where
  /-- What stands where; the first entry of a place counts. -/
  entries : List (Location × DiskNode)
  /-- The directory that relative paths start from. -/
  home : Location

namespace Disk

/-- A disk with nothing but its root directory. -/
def blank : Disk := ⟨[([], .dir)], []⟩

/-- What stands at a place. -/
def node? (d : Disk) (loc : Location) : Option DiskNode := d.entries.lookup loc

/-- The disk with something else at a place. -/
def put (d : Disk) (loc : Location) (node : DiskNode) : Disk :=
  { d with entries := (loc, node) :: d.entries.filter fun e => e.1 ≠ loc }

/-- The disk with nothing at a place. -/
def remove (d : Disk) (loc : Location) : Disk :=
  { d with entries := d.entries.filter fun e => e.1 ≠ loc }

@[simp]
theorem node?_put_self (d : Disk) (loc : Location) (node : DiskNode) :
    (d.put loc node).node? loc = some node := by
  simp [put, node?]

/-- Putting something at a place leaves the others alone. -/
theorem node?_put_ne {d : Disk} {loc other : Location} (node : DiskNode) (h : other ≠ loc) :
    (d.put loc node).node? other = d.node? other := by
  rw [put, node?, lookup_cons_ne h, lookup_filter_ne h, node?]

/-- Clearing a place leaves the others alone. -/
theorem node?_remove_ne {d : Disk} {loc other : Location} (h : other ≠ loc) :
    (d.remove loc).node? other = d.node? other :=
  lookup_filter_ne h d.entries

/-! ## Walking -/

/-- The longest name and the longest path, in bytes. -/
def longestName : Nat := 255

/-- The longest path, in bytes. -/
def longestPath : Nat := 4095

/-- Where pieces of a path lead from a place. -/
def walkFrom (d : Disk) (loc : Location) : List Text → Except DiskError Location
  | [] => .ok loc
  | piece :: rest =>
    match d.node? loc with
    | none => .error .notFound
    | some (.file _) => .error .notDirectory
    | some .dir =>
      if piece = ['.'] then walkFrom d loc rest
      else if piece = ['.', '.'] then walkFrom d loc.dropLast rest
      else if longestName < piece.byteLength then .error .nameTooLong
      else walkFrom d (loc ++ [piece]) rest

/-- Where a path leads. What stands there may be nothing, but what leads there must be
directories. -/
def walk (d : Disk) (path : Text) : Except DiskError Location :=
  if path.any (fun c => c.toNat = 0) then .error .nulInPath
  else if path.isEmpty then .error .notFound
  else if longestPath < path.byteLength then .error .nameTooLong
  else
    let start := if Path.isAbsolute path then [] else d.home
    let pieces := (path.splitOn Path.slash).filter fun piece => !piece.isEmpty
    walkFrom d start (if path.getLast? = some Path.slash then pieces ++ [['.']] else pieces)

/-- What stands where a path leads. -/
def find (d : Disk) (path : Text) : Except DiskError (Location × DiskNode) :=
  match d.walk path with
  | .error e => .error e
  | .ok loc =>
    match d.node? loc with
    | none => .error .notFound
    | some node => .ok (loc, node)

/-- Whether a path leads to something. -/
def isThere (d : Disk) (path : Text) : Bool := (d.find path).toOption.isSome

/-- Whether a path leads to a directory. -/
def isDir (d : Disk) (path : Text) : Bool := (d.find path).toOption.any fun f => f.2 = .dir

/-- Whether a path leads to a regular file. -/
def isFile (d : Disk) (path : Text) : Bool := (d.find path).toOption.any fun f => f.2 ≠ .dir

/-! ## Reading -/

/-- The bytes of the file at a path. -/
def readBytes (d : Disk) (path : Text) : Except DiskError ByteArray :=
  match d.find path with
  | .error e => .error e
  | .ok (_, .dir) => .error .isDirectory
  | .ok (_, .file data) => .ok data

/-- The text of the file at a path. -/
def readText (d : Disk) (path : Text) : Except DiskError Text :=
  match d.readBytes path with
  | .error e => .error e
  | .ok data =>
    match Text.ofBytes? data with
    | some t => .ok t
    | none => .error .notText

/-- The names in a directory with what stands under them, in the order of code points. -/
def children (d : Disk) (loc : Location) : List (Text × DiskNode) :=
  let below := d.entries.filterMap fun (l, node) =>
    match l.getLast? with
    | some name => if l.dropLast = loc then some (name, node) else none
    | none => none
  below.mergeSort fun a b => Text.le a.1 b.1

/-! ## Writing -/

/-- The disk with a file at a path, whatever file stood there before. -/
def writeBytes (d : Disk) (path : Text) (data : ByteArray) : Except DiskError Disk :=
  match d.walk (Path.trimRight path) with
  | .error e => .error e
  | .ok loc =>
    if path.getLast? = some Path.slash then .error .isDirectory
    else
      match d.node? loc with
      | some .dir => .error .isDirectory
      | _ => .ok (d.put loc (.file data))

/-- The disk with a text at a path. -/
def writeText (d : Disk) (path text : Text) : Except DiskError Disk :=
  d.writeBytes path text.toBytes

/-- The disk with a new directory at a path. -/
def makeDir (d : Disk) (path : Text) : Except DiskError Disk :=
  match d.walk (Path.trimRight path) with
  | .error e => .error e
  | .ok loc =>
    match d.node? loc with
    | some _ => .error .occupied
    | none => .ok (d.put loc .dir)

/-- The disk with a directory at a path, and with those that lead there. The path is made from its
parent if that is missing; `fuel` bounds how far up. -/
def makeDirsFrom : Nat → Disk → Text → Except DiskError Disk × Disk
  | 0, d, _ => (.error .notFound, d)
  | fuel + 1, d, path =>
    if path.isEmpty then (.ok d, d)
    else
      match d.makeDir path with
      | .ok made => (.ok made, made)
      | .error .notFound =>
        match Path.parent? path with
        | none => (.error .notFound, d)
        | some above =>
          match makeDirsFrom fuel d above with
          | (.error e, d) => (.error e, d)
          | (.ok _, d) =>
            match d.makeDir path with
            | .ok made => (.ok made, made)
            | .error e => if d.isDir path then (.ok d, d) else (.error e, d)
      | .error e => if d.isDir path then (.ok d, d) else (.error e, d)

/-- The disk with a directory at a path and with those that lead there; on an error, the disk with
those that could be made. -/
def makeDirs (d : Disk) (path : Text) : Except DiskError Unit × Disk :=
  match makeDirsFrom (path.length + 1) d path with
  | (.ok _, made) => (.ok (), made)
  | (.error e, made) => (.error e, made)

/-- The disk with the file at one path moved to another, in the place of a file there. -/
def rename (d : Disk) (source target : Text) : Except DiskError Disk :=
  match d.find source, d.walk (Path.trimRight target) with
  | .error e, _ => .error e
  | _, .error e => .error e
  | .ok (sourceLoc, node), .ok targetLoc =>
    if target.getLast? = some Path.slash then .error .notDirectory
    else
      match d.node? targetLoc with
      | some .dir => .error .isDirectory
      | _ => .ok ((d.remove sourceLoc).put targetLoc node)

/-! ## Views -/

/-- The regular files below a place, by the names that lead there from it. -/
def filesBelow (d : Disk) (loc : Location) : List (Location × ByteArray) :=
  d.entries.filterMap fun (l, node) =>
    match node with
    | .file data => if loc.isPrefixOf l then some (l.drop loc.length, data) else none
    | .dir => none

/-- The place that a path names when every part of it is a directory: repeated slashes, points and
two points are resolved. -/
def canonical? (d : Disk) (path : Text) : Option Location :=
  (d.find path).toOption.map Prod.fst

/-- The absolute path of a place. -/
def pathOf (loc : Location) : Text := Path.slash :: Text.joinWith [Path.slash] loc

end Disk

end Mend
