import Mend.Command.Basic
import Mend.Config.Basic
import Mend.Json.Writer
import Mend.Session.Message

/-!
# Generators

A generator is a command that reads a transcript as JSON and prints the next reply. A reply is only
taken from a command that ends well and in time (`Generator.send`).
-/

namespace Mend

/-- A command that produces replies. -/
structure Generator where
  /-- The program. -/
  program : Text
  /-- The arguments. -/
  args : List Text
  /-- The path of the directory that it runs in, if it is not the one of the caller. -/
  dir : Option Text
  /-- The seconds after which a call is stopped. -/
  seconds : Nat
  /-- The number of bytes of a reply that are kept. -/
  limit : Nat
  deriving DecidableEq, Repr

namespace Generator

/-- The generator of a configuration; its command must name a program. -/
def ofConfig (g : GeneratorConfig) (dir : Option Text) : Except Failure Generator :=
  match g.command with
  | [] => .error (.ofText ConfigFault.noCommand.message)
  | program :: args =>
    .ok { program, args, dir, seconds := g.timeoutSecs, limit := g.outputLimitBytes }

/-- What a generator reads. -/
def payload (ms : List Message) : Text :=
  (Json.object [("messages".toList, Message.transcriptJson ms)]).compact

/-- The command of a call. -/
def command (g : Generator) (ms : List Message) : Command :=
  { program := g.program, args := g.args, dir := g.dir, input := some (payload ms).toBytes,
    milliseconds := g.seconds * 1000, limit := g.limit }

/-- A number of seconds as a length of time. -/
def duration (seconds : Nat) : Text :=
  if seconds = 0 then "0ns".toList else Text.ofNat seconds ++ ['s']

/-- The status of a process in messages, which names an absent one. -/
def statusText (e : Ending) : Text :=
  match e.code? with
  | some n => "Some(".toList ++ Text.ofNat n ++ [')']
  | none => "None".toList

/-- The number of lines that a failure quotes. -/
def quotedLines : Nat := 5

/-- The reply in the result of a call. -/
def reply (g : Generator) (r : CommandResult) : Except Failure Text :=
  if r.timedOut then .error (.ofText ("generator timed out after ".toList ++ duration g.seconds))
  else if !r.ending.isSuccess then
    .error (.ofText ("generator exited with status ".toList ++ statusText r.ending ++ [':', ' '] ++
      r.errors.tail quotedLines))
  else .ok r.output.text

/-- Calls a generator with a transcript. -/
def send (g : Generator) (ms : List Message) (d : Disk) : Except Failure Text × Disk :=
  match (g.command ms).run d with
  | (.error f, d) => (.error (f.within ("run generator ".toList ++ g.program)), d)
  | (.ok r, d) => (g.reply r, d)

end Generator

end Mend
