import Mend.Config.Basic
import Mend.Failure
import Mend.Toml.Reader
import Mend.Toml.Writer

/-!
# Configuration files

A configuration is written as a TOML document and read from one. A field that is missing has its
default, and names that mean nothing are left aside. A file that is missing is the default
configuration (`Config.load`). What is loaded is valid, and only a valid configuration is written
(`Config.save`).
-/

namespace Mend

/-- The numbers of 32 bits. -/
def word32 : Nat := 2 ^ 32

/-- The numbers of 64 bits. -/
def word64 : Nat := 2 ^ 64

/-- Why a configuration cannot be loaded. -/
inductive ConfigError where
  /-- The file cannot be read. -/
  | unreadable (path : Text) (e : DiskError)
  /-- The file holds no document, or one whose values are of other types. -/
  | malformed (path : Text)
  /-- The configuration has a fault. -/
  | invalid (path : Text) (fault : ConfigFault)
  deriving DecidableEq, Repr

/-- The failure of a text that is no document of the expected form. -/
def Toml.malformed : Failure := .ofText "TOML parse error".toList

/-- The failure that an error is shown as. -/
def ConfigError.failure : ConfigError → Failure
  | unreadable path e => e.failure "read" path
  | malformed path => Toml.malformed.within ("parse ".toList ++ path)
  | invalid path fault => (Failure.ofText fault.message).within ("invalid config ".toList ++ path)

namespace GeneratorConfig

/-- The names of the fields, in order. -/
def fieldNames : List Text :=
  ["command".toList, "timeout_secs".toList, "output_limit_bytes".toList]

/-- The settings that a record holds. -/
def ofToml? (v : Toml) : Option GeneratorConfig := do
  let fields ← v.record? fieldNames true
  let base : GeneratorConfig := {}
  return {
    command := ← Toml.fieldOr fields "command" Toml.texts? base.command
    timeoutSecs := ← Toml.fieldOr fields "timeout_secs" (Toml.nat? word64) base.timeoutSecs
    outputLimitBytes :=
      ← Toml.fieldOr fields "output_limit_bytes" (Toml.nat? word64) base.outputLimitBytes }

/-- The entries of the table that holds the settings. -/
def write (g : GeneratorConfig) : Text :=
  Toml.writeEntry "command" (Toml.writeTexts g.command) ++
  Toml.writeEntry "timeout_secs" (Text.ofNat g.timeoutSecs) ++
  Toml.writeEntry "output_limit_bytes" (Text.ofNat g.outputLimitBytes)

end GeneratorConfig

namespace Config

/-- The configuration that a table holds. -/
def ofToml? (v : Toml) : Option Config := do
  let fields ← v.record? [] true
  let base : Config := {}
  return {
    maxTurns := ← Toml.fieldOr fields "max_turns" (Toml.nat? word32) base.maxTurns
    correctiveRetries :=
      ← Toml.fieldOr fields "corrective_retries" (Toml.nat? word32) base.correctiveRetries
    strictContext := ← Toml.fieldOr fields "strict_context" Toml.bool? base.strictContext
    maxFileBytes := ← Toml.fieldOr fields "max_file_bytes" (Toml.nat? word64) base.maxFileBytes
    listingDepth := ← Toml.fieldOr fields "listing_depth" (Toml.nat? word64) base.listingDepth
    systemPrompt := ← Toml.field? fields "system_prompt" Toml.text?
    logDir := ← Toml.field? fields "log_dir" Toml.text?
    generator := ← Toml.fieldOr fields "generator" GeneratorConfig.ofToml? base.generator }

/-- The configuration that a document holds. -/
def read? (t : Text) : Option Config := (Toml.read? t).bind ofToml?

/-- An entry for a text that may be absent. -/
def writeOptional (name : String) (t : Option Text) : Text :=
  match t with
  | some t => Toml.writeEntry name (Toml.quote t)
  | none => []

/-- The document that holds a configuration. -/
def write (c : Config) : Text :=
  Toml.writeEntry "max_turns" (Text.ofNat c.maxTurns) ++
  Toml.writeEntry "corrective_retries" (Text.ofNat c.correctiveRetries) ++
  Toml.writeEntry "strict_context" (Toml.writeBool c.strictContext) ++
  Toml.writeEntry "max_file_bytes" (Text.ofNat c.maxFileBytes) ++
  Toml.writeEntry "listing_depth" (Text.ofNat c.listingDepth) ++
  writeOptional "system_prompt" c.systemPrompt ++
  writeOptional "log_dir" c.logDir ++
  Toml.writeHeader "generator" ++
  c.generator.write

/-- The name under which a configuration is looked up in a working directory. -/
def fileName : Text := "patchloop.toml".toList

/-- The configuration in a file. A file that is not there holds the default. -/
def load (path : Text) (d : Disk) : Except ConfigError Config :=
  if !d.isThere path then .ok {}
  else
    match d.readText path with
    | .error e => .error (.unreadable path e)
    | .ok t =>
      match read? t with
      | none => .error (.malformed path)
      | some c =>
        match c.fault? with
        | some fault => .error (.invalid path fault)
        | none => .ok c

/-- Writes a configuration to a file, by way of a file beside it that then replaces it. -/
def save (path : Text) (c : Config) (d : Disk) : Except Failure Unit × Disk :=
  match c.fault? with
  | some fault => (.error (.ofText fault.message), d)
  | none =>
    match Path.parent? path with
    | none => (.error (.ofText ("config path missing parent ".toList ++ path)), d)
    | some parent =>
      match d.makeDirs parent with
      | (.error e, d) => (.error (e.failure "create directory" parent), d)
      | (.ok _, d) =>
        let temporary := Path.withExtension path "toml.tmp".toList
        match d.writeText temporary (c.write ++ [Text.lf]) with
        | .error e => (.error (e.failure "write temp config" temporary), d)
        | .ok d =>
          match d.rename temporary path with
          | .error e => (.error (e.failure "replace config" path), d)
          | .ok d => (.ok (), d)

end Config

end Mend
