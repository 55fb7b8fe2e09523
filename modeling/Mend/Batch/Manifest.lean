import Mend.Config.File

/-!
# Manifests

A manifest lists the repair tasks of a batch: for each a name, a working directory and the file with
the prompt it starts from, and, if wanted, a configuration file and a number of turns. Defaults
apply where a task names none. Relative paths start from the directory of the manifest.

The tasks of a batch may run at the same time, so a manifest is only accepted when no working
directory holds another (`Manifest.fault?`). What place a directory is depends on the disk, and the
rule is stated for any function that tells the places of paths.
-/

namespace Mend

/-- Settings for the tasks that have none of their own. -/
structure TaskDefaults where
  /-- The configuration file. -/
  config : Option Text := none
  /-- The number of turns. -/
  maxTurns : Option Nat := none
  deriving DecidableEq, Repr

/-- A repair task. -/
structure Task where
  /-- The name, by which results are told apart. -/
  id : Text
  /-- The working directory. -/
  workdir : Text
  /-- The file with the prompt. -/
  prompt : Text
  /-- The configuration file. -/
  config : Option Text := none
  /-- The number of turns. -/
  maxTurns : Option Nat := none
  deriving DecidableEq, Repr

/-- The tasks of a batch. -/
structure Manifest where
  /-- The settings for tasks that have none of their own. -/
  defaults : TaskDefaults
  /-- The tasks, in order. -/
  tasks : List Task
  deriving DecidableEq, Repr

namespace Task

/-- The configuration file of a task: its own, the default one, or the one that is looked up in its
working directory. -/
def configPath (t : Task) (defaults : TaskDefaults) : Text :=
  (t.config.or defaults.config).getD (Path.join t.workdir Config.fileName)

/-- The number of turns of a task: its own or the default one. -/
def turns? (t : Task) (defaults : TaskDefaults) : Option Nat := t.maxTurns.or defaults.maxTurns

/-- A character that names may hold. -/
def isIdChar (c : Char) : Bool := c.isLower || c.isDigit || c == '-' || c == '_'

end Task

/-! ## Reading -/

/-- The defaults that a record holds. -/
def TaskDefaults.ofToml? (v : Toml) : Option TaskDefaults := do
  let fields ← v.record? ["config".toList, "max_turns".toList] false
  return {
    config := ← Toml.field? fields "config" Toml.text?
    maxTurns := ← Toml.field? fields "max_turns" (Toml.nat? word32) }

/-- The names of the fields of a task, in order. -/
def Task.fieldNames : List Text :=
  ["id".toList, "workdir".toList, "prompt".toList, "config".toList, "max_turns".toList]

/-- The task that a record holds. -/
def Task.ofToml? (v : Toml) : Option Task := do
  let fields ← v.record? fieldNames false
  return {
    id := ← Toml.field fields "id" Toml.text?
    workdir := ← Toml.field fields "workdir" Toml.text?
    prompt := ← Toml.field fields "prompt" Toml.text?
    config := ← Toml.field? fields "config" Toml.text?
    maxTurns := ← Toml.field? fields "max_turns" (Toml.nat? word32) }

namespace Manifest

/-- The manifest that a table holds. -/
def ofToml? (v : Toml) : Option Manifest := do
  let fields ← v.record? [] true
  return {
    defaults := ← Toml.fieldOr fields "defaults" TaskDefaults.ofToml? {}
    tasks := ← Toml.fieldOr fields "tasks" (fun v => v.items?.bind fun items =>
      items.mapM Task.ofToml?) [] }

/-- The manifest with its paths seen from a directory. -/
def resolve (base : Text) (m : Manifest) : Manifest where
  defaults := { m.defaults with config := m.defaults.config.map (Path.join base) }
  tasks := m.tasks.map fun t =>
    { t with
      workdir := Path.join base t.workdir
      prompt := Path.join base t.prompt
      config := t.config.map (Path.join base) }

end Manifest

/-! ## Validity -/

/-- What can be wrong with a manifest. Tasks are counted from zero. -/
inductive ManifestFault where
  /-- There are no tasks. -/
  | noTasks
  /-- The default allows no turns. -/
  | noDefaultTurns
  /-- A name is blank. -/
  | blankId (index : Nat)
  /-- A name holds other characters than it may. -/
  | badId (index : Nat)
  /-- A task allows no turns. -/
  | noTurns (index : Nat)
  /-- A name comes twice. -/
  | duplicateId (id : Text)
  /-- A working directory holds or is held by that of an earlier task. -/
  | overlap (id workdir other : Text)
  deriving DecidableEq, Repr

/-- The name of a task in texts about faults. -/
def ManifestFault.place (index : Nat) : Text :=
  "tasks[".toList ++ Text.ofNat index ++ [']']

/-- The failure that a fault is shown as. -/
def ManifestFault.failure : ManifestFault → Failure
  | noTasks => .ofText "tasks must be a non-empty array".toList
  | noDefaultTurns => .ofText "defaults.max_turns must be > 0".toList
  | blankId index =>
    (Failure.ofText "id must be non-empty".toList).within (place index ++ " invalid".toList)
  | badId index =>
    (Failure.ofText "id must use [a-z0-9_-] only".toList).within (place index ++ " invalid".toList)
  | noTurns index => .ofText (place index ++ ".max_turns must be > 0".toList)
  | duplicateId id => .ofText ("duplicate task id ".toList ++ id)
  | overlap id workdir other =>
    .ofText ("task ".toList ++ id ++ " working directory ".toList ++ workdir ++
      " overlaps task ".toList ++ other)

namespace Manifest

/-- Whether one of two places holds the other. -/
def overlaps (a b : List PathPart) : Bool := a.isPrefixOf b || b.isPrefixOf a

/-- A task that was found to be free of faults, with its place. -/
structure Checked where
  /-- The name of the task. -/
  id : Text
  /-- The place of its working directory. -/
  place : List PathPart
  deriving DecidableEq, Repr

/-- The first fault of a task, given the tasks before it. -/
def taskFault? (place : Text → List PathPart) (index : Nat) (earlier : List Checked) (t : Task) :
    Option ManifestFault :=
  if t.id.trim.isEmpty then some (.blankId index)
  else if !t.id.all Task.isIdChar then some (.badId index)
  else if t.maxTurns = some 0 then some (.noTurns index)
  else if earlier.any fun e => e.id = t.id then some (.duplicateId t.id)
  else
    (earlier.find? fun e => overlaps e.place (place t.workdir)).map fun e =>
      .overlap t.id t.workdir e.id

/-- The first fault of tasks, given the tasks before them. -/
def tasksFault? (place : Text → List PathPart) (index : Nat) (earlier : List Checked) :
    List Task → Option ManifestFault
  | [] => none
  | t :: rest =>
    match taskFault? place index earlier t with
    | some fault => some fault
    | none => tasksFault? place (index + 1) (earlier ++ [⟨t.id, place t.workdir⟩]) rest

/-- The first fault of a manifest. -/
def fault? (place : Text → List PathPart) (m : Manifest) : Option ManifestFault :=
  if m.tasks.isEmpty then some .noTasks
  else if m.defaults.maxTurns = some 0 then some .noDefaultTurns
  else tasksFault? place 0 [] m.tasks

end Manifest

/-- The place of a path: where it leads on the disk, or the parts of the path as written when it
leads nowhere. -/
def Disk.place (d : Disk) (path : Text) : List PathPart :=
  match d.canonical? path with
  | some loc => .root :: loc.map .name
  | none => Path.parts path

/-- Why a manifest cannot be loaded. -/
inductive ManifestError where
  /-- The file cannot be read. -/
  | unreadable (path : Text) (e : DiskError)
  /-- The file holds no document, or one whose values are of other types. -/
  | malformed (path : Text)
  /-- The manifest has a fault. -/
  | invalid (path : Text) (fault : ManifestFault)
  deriving DecidableEq, Repr

/-- The failure that an error is shown as. -/
def ManifestError.failure : ManifestError → Failure
  | unreadable path e => e.failure "read manifest" path
  | malformed path => Toml.malformed.within ("parse manifest ".toList ++ path)
  | invalid path fault => fault.failure.within ("validate manifest ".toList ++ path)

/-- The manifest in a file. -/
def Manifest.load (path : Text) (d : Disk) : Except ManifestError Manifest :=
  match d.readText path with
  | .error e => .error (.unreadable path e)
  | .ok t =>
    match (Toml.read? t).bind ofToml? with
    | none => .error (.malformed path)
    | some m =>
      let m := m.resolve ((Path.parent? path).getD ['.'])
      match m.fault? d.place with
      | some fault => .error (.invalid path fault)
      | none => .ok m

end Mend
