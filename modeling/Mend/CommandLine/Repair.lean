import Mend.CommandLine.Arguments
import Mend.Patch.Apply
import Mend.Repair
import Mend.Turn.Parse

/-!
# The command line for repairs

The commands that repair a working directory, show what a reply means, apply a patch and write a
configuration (`RepairCommand`). A failure is printed as one line, and the status tells how a
session ended.
-/

namespace Mend

/-- A command. -/
inductive RepairCommand where
  /-- Runs a session. -/
  | run (workdir prompt : Text) (config : Option Text) (maxTurns : Option Nat)
  /-- Shows the turn in a file. -/
  | parse (file : Text)
  /-- Applies the patch in a file, and writes what it produces if that is wanted. -/
  | apply (workdir patch : Text) (write strict : Bool)
  /-- Writes a configuration. -/
  | initConfig (path : Text) (force : Bool)
  deriving DecidableEq, Repr

namespace RepairCommand

/-- The arguments. -/
def programSyntax : ProgramSyntax where
  name := "patchloop".toList
  version := "0.1.0".toList
  commands :=
    [⟨"run".toList,
      [.option "workdir".toList .path true, .option "prompt".toList .path true,
       .option "config".toList .path false, .option "max-turns".toList (.number word32) false]⟩,
     ⟨"parse".toList, [.operand "file".toList .path]⟩,
     ⟨"apply".toList,
      [.option "workdir".toList .path true, .option "patch".toList .path true,
       .flag "write".toList none, .flag "strict".toList none]⟩,
     ⟨"init-config".toList, [.operand "path".toList .path, .flag "force".toList (some 'f')]⟩]

/-- The command that arguments give. -/
def ofGiven (name : Text) (g : Given) : RepairCommand :=
  if name = "run".toList then
    .run (g.value "workdir") (g.value "prompt") (g.value? "config") (g.number? "max-turns")
  else if name = "parse".toList then .parse (g.value "file")
  else if name = "apply".toList then
    .apply (g.value "workdir") (g.value "patch") (g.has "write".toList) (g.has "strict".toList)
  else .initConfig (g.value "path") (g.has "force".toList)

/-- What a failure prints. -/
def failed (f : Failure) : Printed := { code := 1, errors := f.chain ++ ['\n'] }

/-- What a session prints. -/
def summary (o : Outcome) : Json :=
  .object
    [("session_id".toList, .text o.id), ("reason".toList, .text o.reason.name),
     ("turns".toList, .number (.nat o.turns)),
     ("files_written".toList, .array (o.written.map .text))]

/-- Prints a value. -/
def printed (code : Nat) (v : Json) : Printed := { code, output := v.pretty ++ ['\n'] }

/-! ## Applying patches -/

/-- The store that patches are applied to, which reads files of any size. -/
def patchStore (workdir : Text) : Store Disk := DirectoryStore.store ⟨workdir, word64 - 1⟩

/-- What a patch finds under a path of a store. -/
def loadFrom {ω : Type} (s : Store ω) (w : ω) (path : Text) : Loaded × ω :=
  match s.read path w with
  | (.ok (some content), w) => (.content content, w)
  | (.ok none, w) => (.notFound, w)
  | (.error f, w) => (.unreadable f.chain, w)

/-- Writes files into a store, up to the first that fails. -/
def writeTo {ω : Type} (s : Store ω) : List PatchedFile → ω → Except Failure Unit × ω
  | [], w => (.ok (), w)
  | file :: rest, w =>
    match s.write file.path file.content w with
    | (.ok _, w) => writeTo s rest w
    | (.error f, w) => (.error f, w)

/-- What the warnings of a patch print. -/
def warningLines (ws : List PatchWarning) : Text :=
  ws.flatMap fun w => "warning: ".toList ++ w.message ++ ['\n']

/-- Applies a patch to a working directory. -/
def applyPatch (workdir patch : Text) (write strict : Bool) (d : Disk) : Printed × Disk :=
  let s := patchStore workdir
  match Patch.apply strict (loadFrom s) patch d with
  | (.error e, d) =>
    ({ code := 1, errors := e.kind ++ [':', ' '] ++ e.message ++ ['\n'] }, d)
  | (.ok r, d) =>
    let warnings := warningLines r.warnings
    if write then
      match writeTo s r.files d with
      | (.error f, d) => ({ failed f with errors := warnings ++ (failed f).errors }, d)
      | (.ok _, d) =>
        let count := "wrote ".toList ++ Text.ofNat r.files.length ++ " file(s)\n".toList
        ({ code := 0, errors := warnings ++ count }, d)
    else ({ code := 0, output := r.rendered ++ ['\n'], errors := warnings }, d)

/-! ## Commands -/

/-- Runs a command; `session` names a session that it runs. -/
def execute (session : Text) (c : RepairCommand) (d : Disk) : Printed × Disk :=
  match c with
  | .run workdir prompt config maxTurns =>
    let configPath := config.getD (Path.join workdir Config.fileName)
    match Repair.run { id := session, workdir, prompt, configPath, maxTurns } d with
    | (.ok o, d) => (printed o.reason.exitCode (summary o), d)
    | (.error f, d) => (failed f, d)
  | .parse file =>
    match d.readText file with
    | .ok t => (printed 0 (Turn.parse t).toJson, d)
    | .error e => (failed (e.failure "read" file), d)
  | .apply workdir patch write strict =>
    match d.readText patch with
    | .ok t => applyPatch workdir t write strict d
    | .error e => (failed (e.failure "read" patch), d)
  | .initConfig path force =>
    if d.isThere path && !force then
      (failed (.ofText (path ++ " already exists (use --force to overwrite)".toList)), d)
    else
      match Config.save path {} d with
      | (.ok _, d) => ({ code := 0 }, d)
      | (.error f, d) => (failed f, d)

/-- Runs the command that arguments give. -/
def runArgs (session : Text) (args : List Text) (d : Disk) : Printed × Disk :=
  match programSyntax.read args with
  | .error stop => (stop.printed programSyntax, d)
  | .ok (c, g) => execute session (ofGiven c.name g) d

end RepairCommand

end Mend
