import Mend.CommandLine.Image

/-!
# The program

Reads the image of a disk from its input, runs one of the command lines on it and prints what that
leaves. The first argument names the command line, and the others are its arguments.
-/

namespace Mend

/-- Everything that is left in a stream. -/
partial def readRest (input : IO.FS.Stream) (seen : String) : IO String := do
  let line ← input.getLine
  if line.isEmpty then return seen else readRest input (seen ++ line)

/-- The name of the session that the program runs. -/
def sessionName : Text := "session-0-0".toList

/-- The stamp of the batch that the program runs. -/
def batchStamp : BatchStamp where
  id := "batch-0".toList
  startTime := "1970-01-01T00:00:00+00:00".toList
  endTime := "1970-01-01T00:00:00+00:00".toList
  seconds := 0

end Mend

/-- Runs a command line on the image in the input. -/
def main (args : List String) : IO UInt32 := do
  let image ← Mend.readRest (← IO.getStdin) ""
  let result := (Mend.Json.read? image.toList).bind fun v =>
    Mend.runOnImage Mend.sessionName Mend.batchStamp (args.map String.toList) v
  match result with
  | some v =>
    (← IO.getStdout).putStrLn (String.ofList v.pretty)
    return 0
  | none =>
    (← IO.getStderr).putStrLn "usage: mend (patchloop | batch) ARGUMENTS < IMAGE"
    return 2
