import Mend.Config.File
import Mend.Generator
import Mend.Session.Run
import Mend.Store.Directory

/-!
# Repairs

A repair is a session in a working directory on a disk: its configuration and its prompt come from
files, its replies from the command of the configuration, and what it reads and patches are the
files of the directory (`Repair.run`).
-/

namespace Mend

/-- A session to run in a working directory. -/
structure Repair where
  /-- The name of the session. -/
  id : Text
  /-- The path of the working directory. -/
  workdir : Text
  /-- The path of the prompt. -/
  prompt : Text
  /-- The path of the configuration. -/
  configPath : Text
  /-- The number of turns, in the place of that of the configuration. -/
  maxTurns : Option Nat := none
  /-- The directory of the logs, in the place of that of the configuration. -/
  logDir : Option Text := none
  deriving DecidableEq, Repr

namespace Repair

/-- The failure of a working directory that is not there. -/
def noDirectory (path : Text) : Failure :=
  .ofText ("working directory ".toList ++ path ++ " does not exist".toList)

/-- The configuration of a repair: the one in its file, with what the repair itself says. -/
def config (r : Repair) (d : Disk) : Except Failure Config :=
  match Config.load r.configPath d with
  | .error e => .error e.failure
  | .ok c =>
    let c := { c with maxTurns := r.maxTurns.getD c.maxTurns, logDir := r.logDir.or c.logDir }
    match c.fault? with
    | some fault => .error (.ofText fault.message)
    | none => .ok c

/-- What a repair runs in, when its replies come from a generator. -/
def surroundings (r : Repair) (c : Config) (g : Generator) : Surroundings Disk where
  send := g.send
  store := DirectoryStore.store ⟨r.workdir, c.maxFileBytes⟩
  onDisk f d := f d

/-- What a repair needs: its configuration, its prompt and its generator. -/
def prepare (r : Repair) (d : Disk) : Except Failure (Config × Text × Generator) := do
  if !d.isDir r.workdir then throw (noDirectory r.workdir)
  let c ← r.config d
  let prompt ←
    match d.readText r.prompt with
    | .error e => throw (e.failure "read" r.prompt)
    | .ok t => pure t
  let g ← Generator.ofConfig c.generator (some r.workdir)
  return (c, prompt, g)

/-- Runs a repair. -/
def run (r : Repair) (d : Disk) : Except Failure Outcome × Disk :=
  match r.prepare d with
  | .error f => (.error f, d)
  | .ok (c, prompt, g) => Session.run ⟨c, r.id⟩ (r.surroundings c g) prompt d

end Repair

end Mend
