import Mend.CommandLine.Batch
import Mend.CommandLine.Repair
import Mend.Json.Reader

/-!
# Disk images

The programs of the command line run on disks that are values. An image is a JSON object that
describes one: `home`, the directory that relative paths start from, `dirs`, a list of directories,
and `files`, an object of contents by path. What a program leaves is described in the same way.
-/

namespace Mend

namespace Disk

/-- The member of an object with a name. -/
def imageMember? (name : String) : Json → Option Json
  | .object members => members.lookup name.toList
  | _ => none

/-- The byte that a number gives. -/
def imageByte? : Json → Option UInt8
  | .number (.nat n) => if n < 256 then some (UInt8.ofNat n) else none
  | _ => none

/-- The bytes that an image gives to a file: a text, or a list of bytes. -/
def imageBytes? : Json → Option ByteArray
  | .text t => some t.toBytes
  | .array items => (items.mapM imageByte?).map fun bytes => ⟨bytes.toArray⟩
  | _ => none

/-- The disk with a file, and with the directories that lead there. -/
def placeFile (d : Disk) (file : Text × ByteArray) : Disk :=
  let (path, data) := file
  let d := (d.makeDirs ((Path.parent? path).getD [])).2
  (d.writeBytes path data).toOption.getD d

/-- The disk that an image describes. -/
def ofImage? (v : Json) : Option Disk := do
  let dirs ←
    match imageMember? "dirs" v with
    | some (.array items) => items.mapM Json.text?
    | some _ => none
    | none => some []
  let files ←
    match imageMember? "files" v with
    | some (.object members) => members.mapM fun (path, v) => (imageBytes? v).map (path, ·)
    | some _ => none
    | none => some []
  let home ←
    match imageMember? "home" v with
    | some v => v.text?
    | none => some [Path.slash]
  let d := (home :: dirs).foldl (fun d path => (d.makeDirs path).2) blank
  let d := files.foldl placeFile d
  return { d with home := (d.canonical? home).getD [] }

/-- What an image gives for a file. -/
def imageOfBytes (data : ByteArray) : Json :=
  match Text.ofBytes? data with
  | some t => .text t
  | none => .array (data.toList.map fun b => .number (.nat b.toNat))

/-- The image of the files of a disk. -/
def filesImage (d : Disk) : Json :=
  .object ((d.filesBelow []).map fun (loc, data) => (pathOf loc, imageOfBytes data))

end Disk

/-- What a program printed and the files that it left. -/
def Printed.image (p : Printed) (d : Disk) : Json :=
  .object
    [("code".toList, .number (.nat p.code)), ("stdout".toList, .text p.output),
     ("stderr".toList, .text p.errors), ("files".toList, d.filesImage)]

/-- Runs one of the programs on the disk of an image: the first argument names it. -/
def runOnImage (session : Text) (stamp : BatchStamp) (args : List Text) (image : Json) :
    Option Json := do
  let d ← Disk.ofImage? image
  match args with
  | [] => none
  | program :: args =>
    if program = RepairCommand.programSyntax.name then
      let (p, d) := RepairCommand.runArgs session args d
      return p.image d
    else if program = BatchCommand.programSyntax.name then
      let (p, d) := BatchCommand.runArgs stamp args d
      return p.image d
    else none

end Mend
