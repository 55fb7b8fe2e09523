import Mend.Failure
import Mend.Json.Record
import Mend.Json.Writer
import Mend.Turn.Action

/-!
# Records of tasks

What is kept about each task of a batch: how it ended, how many turns it took, what it wrote and
when it ran. A record is written as JSON with its fields in a fixed order and read back from it
(`TaskRecord.toJson`, `TaskRecord.read`).
-/

namespace Mend

/-- How a task ended. -/
inductive TaskStatus where
  /-- Its session ended for a reason. -/
  | ended (reason : DoneReason)
  /-- It could not be set up, or its session failed. -/
  | failed
  deriving DecidableEq, Repr

namespace TaskStatus

/-- The name of a status. -/
def name : TaskStatus → Text
  | ended reason => reason.name
  | failed => "error".toList

/-- All statuses. -/
def all : List TaskStatus :=
  [.ended .completed, .ended .noChangesNeeded, .ended .noActionableContent,
   .ended .turnLimitExceeded, .failed]

/-- The status with a name. -/
def ofName? (t : Text) : Option TaskStatus := all.find? fun s => s.name = t

end TaskStatus

/-- The record of a task. -/
structure TaskRecord where
  /-- The name of the task. -/
  taskId : Text
  /-- The name of the batch. -/
  batchId : Text
  /-- The name of the session, if one ended. -/
  sessionId : Option Text
  /-- The working directory. -/
  workdir : Text
  /-- The digest of the prompt, if it could be read. -/
  promptHash : Option Text
  /-- How the task ended. -/
  status : TaskStatus
  /-- The number of turns. -/
  turns : Nat
  /-- The paths written. -/
  filesWritten : List Text
  /-- When the task started. -/
  startTime : Text
  /-- When the task ended. -/
  endTime : Text
  /-- How long the task took, in seconds. -/
  seconds : Float
  /-- Why the task failed, if it did. -/
  error : Option Text

namespace TaskRecord

/-- An optional text. -/
def optionalText : Option Text → Json
  | some t => .text t
  | none => .null

/-- The JSON form of a record. -/
def toJson (r : TaskRecord) : Json :=
  .object
    [("task_id".toList, .text r.taskId),
     ("batch_run_id".toList, .text r.batchId),
     ("session_id".toList, optionalText r.sessionId),
     ("workdir".toList, .text r.workdir),
     ("prompt_hash".toList, optionalText r.promptHash),
     ("status".toList, .text r.status.name),
     ("turns".toList, .number (.nat r.turns)),
     ("files_written".toList, .array (r.filesWritten.map .text)),
     ("start_time".toList, .text r.startTime),
     ("end_time".toList, .text r.endTime),
     ("duration_secs".toList, .number (.float r.seconds)),
     ("error".toList, optionalText r.error)]

/-- The form of a record. -/
def form : RecordForm where
  name := "struct TaskMeta".toList
  fields :=
    [⟨"task_id".toList, .text⟩, ⟨"batch_run_id".toList, .text⟩,
     ⟨"session_id".toList, .optionalText⟩, ⟨"workdir".toList, .text⟩,
     ⟨"prompt_hash".toList, .optionalText⟩,
     ⟨"status".toList, .oneOf (TaskStatus.all.map TaskStatus.name)⟩, ⟨"turns".toList, .word⟩,
     ⟨"files_written".toList, .texts⟩, ⟨"start_time".toList, .text⟩, ⟨"end_time".toList, .text⟩,
     ⟨"duration_secs".toList, .float⟩, ⟨"error".toList, .optionalText⟩]

/-- The whole number that a value is. -/
def whole? : Json → Option Nat
  | .number (.nat n) => some n
  | _ => none

/-- Texts in an array. -/
def texts? : Json → Option (List Text)
  | .array items => items.mapM Json.text?
  | _ => none

/-- A number, rounded. -/
def float? : Json → Option Float
  | .number (.nat n) => some n.toUInt64.toFloat
  | .number (.neg n) => some (-n.toUInt64.toFloat)
  | .number (.float x) => some x
  | _ => none

/-- The record with values of its form. -/
def ofValues (values : RecordForm.Values) : TaskRecord :=
  let value (name : String) : Json := (values.lookup name.toList).getD .null
  let text (name : String) : Text := (value name).text?.getD []
  { taskId := text "task_id"
    batchId := text "batch_run_id"
    sessionId := (value "session_id").text?
    workdir := text "workdir"
    promptHash := (value "prompt_hash").text?
    status := (TaskStatus.ofName? (text "status")).getD .failed
    turns := (whole? (value "turns")).getD 0
    filesWritten := (texts? (value "files_written")).getD []
    startTime := text "start_time"
    endTime := text "end_time"
    seconds := (float? (value "duration_secs")).getD 0
    error := (value "error").text? }

/-- The record that a text holds. -/
def read (t : Text) : Except JsonStop TaskRecord := (form.read t).map ofValues

/-- Writes a record to a file, and makes the directories that lead there. -/
def save (path : Text) (r : TaskRecord) (d : Disk) : Except Failure Unit × Disk :=
  let parent := (Path.parent? path).getD []
  match d.makeDirs parent with
  | (.error e, d) => (.error (e.failure "create" parent), d)
  | (.ok _, d) =>
    match d.writeText path (r.toJson.pretty ++ [Text.lf]) with
    | .error e => (.error (e.failure "write meta" path), d)
    | .ok d => (.ok (), d)

/-- The record in a file. -/
def load (path : Text) (d : Disk) : Except Failure TaskRecord :=
  match d.readText path with
  | .error e => .error (e.failure "read" path)
  | .ok t =>
    match read t with
    | .ok r => .ok r
    | .error s => .error ((Failure.ofText (s.message t)).within ("parse ".toList ++ path))

end TaskRecord

end Mend
