import Mend.Disk
import Mend.Similarity
import Mend.Store.Basic

/-!
# Stores on a disk

A store that serves a working directory. Paths that are absolute or go up are refused
(`DirectoryStore.resolve`), files over a limit are not read, and hidden entries and directories of
dependencies and build results are neither listed nor suggested. A write goes to a hidden file
beside the target first and then replaces the target.
-/

namespace Mend

/-- A working directory on a disk. -/
structure DirectoryStore where
  /-- The path of the directory. -/
  root : Text
  /-- The number of bytes up to which files are read. -/
  maxBytes : Nat
  deriving DecidableEq, Repr

namespace DirectoryStore

/-- The names of directories that are never listed or searched. -/
def skippedDirs : List Text := ["node_modules".toList, "vendor".toList, "target".toList]

/-- How deep similar files are searched. -/
def suggestionDepth : Nat := 5

/-- The failure of a path that leaves the directory. -/
def escapes (path : Text) : Failure :=
  .ofText ("path ".toList ++ path.quoted ++ " escapes the working directory".toList)

/-- The names that a path leads to below the directory. Blanks around the path and one `./` in front
do not count. -/
def resolve (path : Text) : Except Failure (List Text) :=
  let plain := Text.dropPrefix ['.', '/'] path.trim
  match Path.within? (Path.parts plain) with
  | some names => .ok names
  | none => .error (escapes plain)

/-- The path of a place below the directory. -/
def fullPath (s : DirectoryStore) (names : List Text) : Text := names.foldl Path.join s.root

/-- The content of a file. -/
def read (s : DirectoryStore) (path : Text) (d : Disk) : Except Failure (Option Text) :=
  match resolve path with
  | .error f => .error f
  | .ok names =>
    let full := s.fullPath names
    if !d.isFile full then .ok none
    else
      match d.readBytes full with
      | .error e => .error (e.failure "read" full)
      | .ok data =>
        if s.maxBytes < data.size then
          .error (.ofText (path ++ " is ".toList ++ Text.ofNat data.size ++
            " bytes, over the ".toList ++ Text.ofNat s.maxBytes ++ " byte limit".toList))
        else
          match Text.ofBytes? data with
          | some t => .ok (some t)
          | none => .error (DiskError.notText.failure "read" full)

/-- The name of the hidden file that is written before it replaces a file. -/
def temporaryName (name : Text) : Text := '.' :: name ++ ".patchloop.tmp".toList

/-- The disk after writing a file, on a failure with what was done until then. -/
def write (s : DirectoryStore) (path content : Text) (d : Disk) : Except Failure Unit × Disk :=
  match resolve path with
  | .error f => (.error f, d)
  | .ok names =>
    match names.getLast? with
    | none => (.error (.ofText "cannot write to the working directory itself".toList), d)
    | some name =>
      let full := s.fullPath names
      let parent := (Path.parent? full).getD []
      match d.makeDirs parent with
      | (.error e, d) => (.error (e.failure "create directory" parent), d)
      | (.ok _, d) =>
        let temporary := Path.join parent (temporaryName name)
        match d.writeText temporary content with
        | .error e => (.error (e.failure "write temp file" temporary), d)
        | .ok d =>
          match d.rename temporary full with
          | .error e => (.error (e.failure "replace" full), d)
          | .ok d => (.ok (), d)

/-- Whether an entry is left out of listings and searches. -/
def isSkipped (name : Text) (node : DiskNode) : Bool :=
  name.head? = some '.' || (node = .dir && skippedDirs.contains name)

/-- The entries below a place down to a depth, by the names that lead there, with what stands there;
a directory comes before what it holds. -/
def entriesBelow (d : Disk) (loc : Location) (names : List Text) :
    Nat → List (List Text × DiskNode)
  | 0 => []
  | depth + 1 =>
    ((d.children (loc ++ names)).filter fun (name, node) => !isSkipped name node).flatMap
      fun (name, node) =>
        (names ++ [name], node) ::
          (if node = .dir then entriesBelow d loc (names ++ [name]) depth else [])

/-- The entries below a directory. -/
def list (s : DirectoryStore) (path : Text) (depth : Nat) (d : Disk) :
    Except Failure (Option (List Text)) :=
  match resolve path with
  | .error f => .error f
  | .ok names =>
    match d.find (s.fullPath names) with
    | .ok (loc, .dir) =>
      .ok (some ((entriesBelow d loc [] (max depth 1)).map fun (below, node) =>
        Text.joinWith ['/'] (names ++ below) ++ (if node = .dir then ['/'] else [])))
    | _ => .ok none

/-- Files below the directory that resemble a path. -/
def suggest (s : DirectoryStore) (path : Text) (d : Disk) : List Text :=
  match d.find s.root with
  | .ok (loc, .dir) =>
    let files := (entriesBelow d loc [] suggestionDepth).filter fun e => e.2 ≠ .dir
    Similarity.rank path (files.map fun e => Text.joinWith ['/'] e.1)
  | _ => []

/-- The store that a working directory makes. -/
def store (s : DirectoryStore) : Store Disk where
  read path d := (s.read path d, d)
  write := s.write
  list path depth d := (s.list path depth d, d)
  suggest path d := (s.suggest path d, d)

end DirectoryStore

end Mend
