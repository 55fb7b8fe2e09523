import Mend.Batch.Manifest
import Mend.Batch.Pool
import Mend.Batch.Record
import Mend.Digest.Sha256
import Mend.Repair

/-!
# Running batches

Every task of a manifest is run as a repair, and a record of it is kept below the results directory
of the batch (`Batch.run`). A task that fails is recorded as failed and stops no other; only a
record that cannot be written is a failure of the batch.
-/

namespace Mend

/-- What tells one run of a batch from another: its name, and the times that its records show. -/
structure BatchStamp where
  /-- The name of the batch. -/
  id : Text
  /-- When its tasks started. -/
  startTime : Text
  /-- When its tasks ended. -/
  endTime : Text
  /-- How long its tasks took, in seconds. -/
  seconds : Float

/-- A batch that was run. -/
structure Batch where
  /-- The name. -/
  id : Text
  /-- The path of the results directory. -/
  resultsDir : Text
  /-- The records, in the order of the manifest. -/
  records : List TaskRecord

namespace Task

/-- The repair that a task asks for, with a directory for its results. -/
def repair (t : Task) (defaults : TaskDefaults) (dir : Text) : Repair where
  id := t.id
  workdir := t.workdir
  prompt := t.prompt
  configPath := t.configPath defaults
  maxTurns := t.turns? defaults
  logDir := some (Path.join dir "turns".toList)

/-- The digest of the prompt, if it can be read. -/
def promptHash (t : Task) (d : Disk) : Option Text :=
  (d.readBytes t.prompt).toOption.map Sha256.hex

/-- The record of a task, by what came of its repair. -/
def record (t : Task) (stamp : BatchStamp) (hash : Option Text) (r : Except Failure Outcome) :
    TaskRecord :=
  let base : TaskRecord :=
    { taskId := t.id, batchId := stamp.id, sessionId := none, workdir := t.workdir
      promptHash := hash, status := .failed, turns := 0, filesWritten := []
      startTime := stamp.startTime, endTime := stamp.endTime, seconds := stamp.seconds
      error := none }
  match r with
  | .ok o =>
    { base with
      sessionId := some o.id, status := .ended o.reason, turns := o.turns
      filesWritten := o.written }
  | .error f => { base with error := some f.chain }

/-- Runs a task and writes its record. -/
def run (t : Task) (defaults : TaskDefaults) (stamp : BatchStamp) (resultsDir : Text) (d : Disk) :
    Except Failure TaskRecord × Disk :=
  let dir := Path.join resultsDir t.id
  let hash := t.promptHash d
  let (r, d) := (t.repair defaults dir).run d
  let record := t.record stamp hash r
  match record.save (Path.join dir "meta.json".toList) d with
  | (.ok _, d) => (.ok record, d)
  | (.error f, d) => (.error f, d)

end Task

namespace Batch

/-- The records in slots, in order, or the first failure. -/
def collect (index : Nat) : List (Option (Except Failure TaskRecord)) →
    Except Failure (List TaskRecord)
  | [] => .ok []
  | none :: _ =>
    .error (.ofText ("task ".toList ++ Text.ofNat index ++ " produced no result".toList))
  | some (.error f) :: _ => .error f
  | some (.ok r) :: rest =>
    match collect (index + 1) rest with
    | .ok rs => .ok (r :: rs)
    | .error f => .error f

/-- Runs the tasks of a manifest with at most `jobs` at one time. -/
def run (m : Manifest) (stamp : BatchStamp) (jobs : Nat) (out : Text) (d : Disk) :
    Except Failure Batch × Disk :=
  let resultsDir := Path.join out stamp.id
  match d.makeDirs resultsDir with
  | (.error e, d) => (.error (e.failure "create results dir" resultsDir), d)
  | (.ok _, d) =>
    let (slots, d) := Pool.results jobs m.tasks (fun t => t.run m.defaults stamp resultsDir) d
    match collect 0 slots with
    | .ok records => (.ok ⟨stamp.id, resultsDir, records⟩, d)
    | .error f => (.error f, d)

end Batch

end Mend
