import Mend.Batch.Report
import Mend.Batch.Run
import Mend.CommandLine.Arguments

/-!
# The command line for batches

The commands that run a manifest and report on the results of a batch (`BatchCommand`). A failure is
printed with the causes below it, one to a line.
-/

namespace Mend

/-- A command. -/
inductive BatchCommand where
  /-- Runs a manifest. -/
  | run (manifest : Text) (jobs : Nat) (out : Text)
  /-- Reports on a results directory. -/
  | report (dir : Text)
  deriving DecidableEq, Repr

namespace BatchCommand

/-- The arguments. -/
def programSyntax : ProgramSyntax where
  name := "batch".toList
  version := "0.1.0".toList
  commands :=
    [⟨"run".toList,
      [.operand "manifest".toList .path, .option "jobs".toList (.number word64) false,
       .option "out".toList .path false]⟩,
     ⟨"report".toList, [.operand "results-dir".toList .path]⟩]

/-- The results directory of those who name none. -/
def defaultOut : Text := "batch-results".toList

/-- The command that arguments give. -/
def ofGiven (name : Text) (g : Given) : BatchCommand :=
  if name = "run".toList then
    .run (g.value "manifest") ((g.number? "jobs").getD 1) ((g.value? "out").getD defaultOut)
  else .report (g.value "results-dir")

/-! ## Failures -/

/-- A text with blanks in front of every line but the first. -/
def indented (width : Nat) (t : Text) : Text :=
  Text.joinWith ('\n' :: List.replicate width ' ') (t.splitOn '\n')

/-- A cause with its number. -/
def numberedCause (i : Nat) (t : Text) : Text :=
  let digits := Text.ofNat i
  List.replicate (5 - digits.length) ' ' ++ digits ++ [':', ' '] ++ indented 7 t

/-- The lines of causes: a single one has no number. -/
def causeLines : List Text → List Text
  | [cause] => [List.replicate 4 ' ' ++ indented 4 cause]
  | causes => causes.zipIdx.map fun (t, i) => numberedCause i t

/-- What a failure prints. -/
def failed (f : Failure) : Printed :=
  let causes :=
    if f.causes.isEmpty then []
    else "\n\nCaused by:".toList ++ (causeLines f.causes).flatMap fun line => '\n' :: line
  { code := 1, errors := "Error: ".toList ++ f.outer ++ causes ++ ['\n'] }

/-! ## Commands -/

/-- The line about a task. -/
def taskLine (r : TaskRecord) : Text :=
  "run: task=".toList ++ r.taskId ++ " status=".toList ++ r.status.name ++ " turns=".toList ++
    Text.ofNat r.turns ++ " files_written=".toList ++ Text.ofNat r.filesWritten.length ++ ['\n']

/-- What a batch prints. -/
def batchText (b : Batch) : Text :=
  b.records.flatMap taskLine ++ "run: batch_run_id=".toList ++ b.id ++ " results=".toList ++
    b.resultsDir ++ ['\n']

/-- A line of a report. -/
def reportLine (name value : Text) : Text := "report: ".toList ++ name ++ '=' :: value ++ ['\n']

/-- What a report prints. -/
def reportText (r : Report) : Text :=
  let average (name : String) (x : Option Float) : Text :=
    x.elim [] fun x => reportLine name.toList (Report.twoPlaces x)
  reportLine "tasks".toList (Text.ofNat r.tasks) ++
    r.byStatus.flatMap (fun (name, n) => reportLine name (Text.ofNat n)) ++
    average "avg_turns" r.averageTurns ++ average "avg_duration_secs" r.averageSeconds ++
    reportLine "files_written".toList (Text.ofNat r.filesWritten)

/-- Runs a command. -/
def execute (stamp : BatchStamp) (c : BatchCommand) (d : Disk) : Printed × Disk :=
  match c with
  | .run manifest jobs out =>
    if jobs = 0 then (failed (.ofText "--jobs must be > 0".toList), d)
    else
      match Manifest.load manifest d with
      | .error e => (failed (e.failure.within "load manifest".toList), d)
      | .ok m =>
        match Batch.run m stamp jobs out d with
        | (.ok b, d) => ({ code := 0, output := batchText b }, d)
        | (.error f, d) => (failed f, d)
  | .report dir =>
    match Report.ofDirectory dir d with
    | .error f => (failed f, d)
    | .ok (r, warnings) =>
      let lines := warnings.flatMap fun f => "warning: ".toList ++ f.chain ++ ['\n']
      ({ code := 0, output := reportText r, errors := lines }, d)

/-- Runs the command that arguments give. -/
def runArgs (stamp : BatchStamp) (args : List Text) (d : Disk) : Printed × Disk :=
  match programSyntax.read args with
  | .error stop => (stop.printed programSyntax, d)
  | .ok (c, g) => execute stamp (ofGiven c.name g) d

end BatchCommand

end Mend
