import Mend.Text.Basic

/-!
# Configurations

The settings of a session: how many turns it may take, how patches are matched, what of the working
directory it shows, and the command that produces the replies. A configuration is valid when none of
its limits is zero and the command names a program; `Config.fault?` finds the first thing wrong.
-/

namespace Mend

/-- The command that turns a transcript into the next reply. -/
structure GeneratorConfig where
  /-- The program and its arguments. -/
  command : List Text := ["llm-generate".toList]
  /-- The seconds after which a call is stopped. -/
  timeoutSecs : Nat := 600
  /-- The number of bytes of a reply that are kept. -/
  outputLimitBytes : Nat := 1000000
  deriving DecidableEq, Repr

/-- The settings of a session. -/
structure Config where
  /-- The number of replies after which a session stops. -/
  maxTurns : Nat := 15
  /-- The number of corrective prompts that a session may send. -/
  correctiveRetries : Nat := 0
  /-- Whether a patch is rejected when a context or removal line does not match. -/
  strictContext : Bool := false
  /-- The number of bytes up to which files are read. -/
  maxFileBytes : Nat := 1048576
  /-- The depth of listings. -/
  listingDepth : Nat := 2
  /-- Opens a session in the place of the built-in description of the protocol. -/
  systemPrompt : Option Text := none
  /-- The directory that receives the turn logs. -/
  logDir : Option Text := none
  /-- What produces the replies. -/
  generator : GeneratorConfig := {}
  deriving DecidableEq, Repr

/-- What can be wrong with a configuration. -/
inductive ConfigFault where
  /-- No turns are allowed. -/
  | noTurns
  /-- No file may be read. -/
  | noFileBytes
  /-- Listings have no depth. -/
  | noListingDepth
  /-- The command has no time. -/
  | noTimeout
  /-- Nothing of a reply is kept. -/
  | noOutput
  /-- The command names no program. -/
  | noCommand
  deriving DecidableEq, Repr

/-- The text of a fault. -/
def ConfigFault.message : ConfigFault → Text
  | noTurns => "max_turns must be > 0".toList
  | noFileBytes => "max_file_bytes must be > 0".toList
  | noListingDepth => "listing_depth must be > 0".toList
  | noTimeout => "generator.timeout_secs must be > 0".toList
  | noOutput => "generator.output_limit_bytes must be > 0".toList
  | noCommand => "generator.command must be a non-empty array".toList

/-- Whether the command names a program. -/
def GeneratorConfig.namesProgram (g : GeneratorConfig) : Bool :=
  g.command.head?.any fun program => !program.trim.isEmpty

/-- The first fault of a configuration. -/
def Config.fault? (c : Config) : Option ConfigFault :=
  if c.maxTurns = 0 then some .noTurns
  else if c.maxFileBytes = 0 then some .noFileBytes
  else if c.listingDepth = 0 then some .noListingDepth
  else if c.generator.timeoutSecs = 0 then some .noTimeout
  else if c.generator.outputLimitBytes = 0 then some .noOutput
  else if !c.generator.namesProgram then some .noCommand
  else none

end Mend
