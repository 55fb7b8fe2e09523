import Mend.Batch.Record
import Mend.Decimal.Fixed

/-!
# Reports

What the records in a results directory amount to: how many tasks ended how, their average turns and
time, and the files that they wrote. Directories without a record that can be read are left out and
named in a warning.
-/

namespace Mend

/-- The summary of a batch. -/
structure Report where
  /-- The number of tasks. -/
  tasks : Nat
  /-- The number of tasks for each status that came up, by name. -/
  byStatus : List (Text × Nat)
  /-- The average number of turns. -/
  averageTurns : Option Float
  /-- The average time, in seconds. -/
  averageSeconds : Option Float
  /-- The number of files written. -/
  filesWritten : Nat

namespace Report

/-- One more of a name, in the order of names. -/
def countName (name : Text) : List (Text × Nat) → List (Text × Nat)
  | [] => [(name, 1)]
  | (other, n) :: rest =>
    if other = name then (other, n + 1) :: rest
    else if Text.le name other then (name, 1) :: (other, n) :: rest
    else (other, n) :: countName name rest

/-- The summary of records. The times are added up in order. -/
def ofRecords (records : List TaskRecord) : Report :=
  let count := records.length.toFloat
  let turns := records.foldl (fun n r => n + r.turns) 0
  let seconds := records.foldl (fun s r => s + r.seconds) (-0.0)
  let average (total : Float) : Option Float :=
    if records.isEmpty then none else some (total / count)
  { tasks := records.length
    byStatus := records.foldl (fun counts r => countName r.status.name counts) []
    averageTurns := average turns.toFloat
    averageSeconds := average seconds
    filesWritten := records.foldl (fun n r => n + r.filesWritten.length) 0 }

/-- A number with two places, or its name when it is not finite. -/
def twoPlaces (x : Float) : Text :=
  if x.isNaN then "NaN".toList
  else if x.isInf then (if x < 0 then "-inf".toList else "inf".toList)
  else (Binary64.ofFloat x).fixed 2

/-- The records below a results directory and the warnings about those that are left out. -/
def collect (dir : Text) (d : Disk) : List (Text × DiskNode) → List TaskRecord × List Failure
  | [] => ([], [])
  | (name, .dir) :: rest =>
    let path := Path.join dir name
    let (records, warnings) := collect dir d rest
    match TaskRecord.load (Path.join path "meta.json".toList) d with
    | .ok r => (r :: records, warnings)
    | .error f => (records, f.within ("skipping ".toList ++ path) :: warnings)
  | (_, .file _) :: rest => collect dir d rest

/-- The report on a results directory, with its warnings. -/
def ofDirectory (dir : Text) (d : Disk) : Except Failure (Report × List Failure) :=
  match d.find dir with
  | .ok (loc, .dir) =>
    let (records, warnings) := collect dir d (d.children loc)
    .ok (ofRecords records, warnings)
  | _ => .error (.ofText ("results directory ".toList ++ dir ++ " does not exist".toList))

end Report

end Mend
