import Mend.Command.Capture
import Mend.Failure
import Mend.Shell.Run

/-!
# Commands

A command is a program with arguments, a directory, perhaps input, and a time that it may take. Its
result tells how it ended and what of its output was kept (`Command.run`). A command that cannot be
started is a failure; one that ends badly or is stopped is not.
-/

namespace Mend

/-- A program to run, and how. -/
structure Command where
  /-- The program, by name or path. -/
  program : Text
  /-- The arguments. -/
  args : List Text
  /-- The path of the directory that it runs in; the one of the caller if there is none. -/
  dir : Option Text := none
  /-- The input. -/
  input : Option ByteArray := none
  /-- The milliseconds after which it is stopped. -/
  milliseconds : Nat
  /-- The number of bytes that are kept of each output. -/
  limit : Nat
  deriving DecidableEq

/-- How a process ended. -/
inductive Ending where
  /-- With a status. -/
  | status (n : Nat)
  /-- By a signal. -/
  | signal (n : Nat)
  deriving DecidableEq, Repr

namespace Ending

/-- The status, if there is one. -/
def code? : Ending → Option Nat
  | status n => some n
  | signal _ => none

/-- Whether the process ended well. -/
def isSuccess (e : Ending) : Bool := e = .status 0

end Ending

/-- What came of a command. -/
structure CommandResult where
  /-- How it ended. -/
  ending : Ending
  /-- Its output. -/
  output : Capture
  /-- Its messages. -/
  errors : Capture
  /-- Whether it was stopped because its time was over. -/
  timedOut : Bool
  deriving DecidableEq

namespace Command

/-- The signal that stops a command. -/
def stopSignal : Nat := 9

/-- Whether a text can be handed to a process: it holds no NUL. -/
def isSendable (t : Text) : Bool := t.all fun c => c.toNat ≠ 0

/-- The failure of a text that cannot be handed to a process. -/
def notSendable : Failure := .ofText "nul byte found in provided data".toList

/-- The directory that a command runs in. -/
def place (c : Command) (d : Disk) : Except DiskError Location :=
  match c.dir with
  | none => .ok d.home
  | some path =>
    match d.find path with
    | .error e => .error e
    | .ok (_, .file _) => .error .notDirectory
    | .ok (loc, .dir) => .ok loc

/-- The program that a command names on the disk as seen from its directory. Files are no programs,
and those that are there have known names; nothing stands for the one that runs scripts. -/
def program? (c : Command) (d : Disk) : Except DiskError (Option Shell.Program) :=
  if Shell.Program.baseName c.program = Shell.Program.scriptRunner then .ok none
  else
    match Shell.Program.named? c.program with
    | some f => .ok (some f)
    | none =>
      if c.program = ['.'] || c.program = ['.', '.'] then .error .denied
      else if c.program.contains Path.slash then
        match d.find c.program with
        | .ok _ => .error .denied
        | .error e => .error e
      else .error .notFound

/-- The number of the process that runs a command. -/
def processId : Nat := 1

/-- Runs a program with streams for its input, output and messages, and tells how it ended and
whether time was left. -/
def execute (c : Command) (f : Option Shell.Program) (p : Shell.Process) (m : Shell.Machine) :
    Ending × Bool × Shell.Machine :=
  let args := c.args.map Octets.ofText
  if m.isExpired then (.signal stopSignal, true, m)
  else
    match f with
    | some f =>
      let (status, m) := f p args m
      if m.isExpired then (.signal stopSignal, true, m) else (.status status, false, m)
    | none =>
      let name := Octets.ofText c.program
      let act := Shell.startShell Shell.deepest p.id name args
      match act.run { env := { name, process := p }, machine := m } with
      | (.error (.killed _ signal), w) => (.signal signal, false, w.machine)
      | (.error .stopped, w) => (.signal stopSignal, true, w.machine)
      | (_, w) => (.status w.env.status, false, w.machine)

/-- What is kept of what a program left on a stream. -/
def capture (c : Command) (m : Shell.Machine) (s : Shell.Stream) : Except Failure Capture :=
  (Capture.drain c.limit {} ((Capture.blocks (m.waiting s)).map .ok)).1

/-- Runs a command that can be started. -/
def runIn (c : Command) (f : Option Shell.Program) (place : Location) (d : Disk) :
    Except Failure CommandResult × Disk :=
  let m : Shell.Machine :=
    { disk := d, pipes := #[c.input.getD .empty, .empty, .empty], deadline := c.milliseconds }
  let p : Shell.Process :=
    { id := processId, dir := place, streams := [(0, .pipe 0), (1, .pipe 1), (2, .pipe 2)] }
  let (ending, timedOut, m) := c.execute f p m
  let result := do
    let output ← Except.inContext "join stdout".toList (c.capture m (.pipe 1))
    let errors ← Except.inContext "join stderr".toList (c.capture m (.pipe 2))
    return { ending, output, errors, timedOut }
  (result, m.disk)

/-- Runs a command. -/
def run (c : Command) (d : Disk) : Except Failure CommandResult × Disk :=
  let context := "spawn command".toList
  if !(isSendable c.program && c.args.all isSendable && c.dir.all isSendable) then
    (.error (notSendable.within context), d)
  else
    match c.place d with
    | .error e => (.error ((Failure.ofText e.message).within context), d)
    | .ok place =>
      match c.program? { d with home := place } with
      | .error e => (.error ((Failure.ofText e.message).within context), d)
      | .ok f => c.runIn f place d

end Command

end Mend
