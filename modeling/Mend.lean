import Mend.Text.Quoted
import Mend.Text.Lowercase
import Mend.Text.Utf8
import Mend.Decimal.Fixed
import Mend.Json.Reader
import Mend.Json.Writer
import Mend.Json.Recovery
import Mend.Tag
import Mend.Request.Basic
import Mend.Request.Resolve
import Mend.Request.Plan
import Mend.Turn.Parse
import Mend.Turn.TagText
import Mend.Turn.Action
import Mend.Patch.Structure
import Mend.Patch.Buffer
import Mend.Patch.Apply
import Mend.Diff.Unified
import Mend.Similarity
import Mend.Prompt
import Mend.Disk
import Mend.Store.Memory
import Mend.Store.Directory
import Mend.Config.Basic
import Mend.Session.Message
import Mend.Session.Cache
import Mend.Session.TurnLog
import Mend.Session.Conversation
import Mend.Session.Reaction
import Mend.Session.Run
import Mend.Session.Script
import Mend.Toml.Reader
import Mend.Toml.Writer
import Mend.Config.File
import Mend.Json.Record
import Mend.Batch.Manifest
import Mend.Digest.Sha256
import Mend.Batch.Record
import Mend.Batch.Report
import Mend.Shell.Run
import Mend.Command.Basic
import Mend.Generator
import Mend.Repair
import Mend.Batch.Pool
import Mend.Batch.Run
import Mend.CommandLine.Arguments
import Mend.CommandLine.Repair
import Mend.CommandLine.Batch
import Mend.CommandLine.Image
import Mend.Main
import Mend.Proofs.Revision.Basic
import Mend.Proofs.Revision.Ending
import Mend.Proofs.Revision.Tokens
import Mend.Proofs.Revision.Apply
import Mend.Proofs.Diff.Script
import Mend.Proofs.Diff.Groups
import Mend.Proofs.Diff.RoundTrip
import Mend.Proofs.Revision.CarriageReturns
import Mend.Proofs.Diff.CarriageReturns
import Mend.Proofs.Json.Numerals
import Mend.Proofs.Json.Texts
import Mend.Proofs.Json.Grammar
import Mend.Proofs.Json.WholeNumbers
import Mend.Proofs.Json.RoundTrip
import Mend.Proofs.Json.Brackets
import Mend.Proofs.Json.Recovery
import Mend.Proofs.Text.LineEnds
import Mend.Proofs.Json.LineEnds
import Mend.Proofs.Json.Embedded
import Mend.Proofs.Json.Prose
import Mend.Proofs.Turn.Delimiters
import Mend.Proofs.Request.RoundTrip
import Mend.Proofs.Turn.RoundTrip
import Mend.Proofs.Text.Matches
import Mend.Proofs.Request.Stages
import Mend.Proofs.Request.Members
import Mend.Proofs.Request.Spellings
import Mend.Proofs.Request.Truncation
import Mend.Proofs.Turn.Sections
import Mend.Proofs.Turn.Standalone
import Mend.Proofs.Turn.TaggedRegion
import Mend.Proofs.Turn.LineEnds
import Mend.Proofs.Patch.Simulation
import Mend.Proofs.Session.Simulation
import Mend.Proofs.Session.Exchange
import Mend.Proofs.Session.Accounting
import Mend.Proofs.Patch.Run
import Mend.Proofs.Patch.Files
import Mend.Proofs.Patch.Modes
import Mend.Proofs.Patch.Conservation
import Mend.Proofs.Patch.Composition
import Mend.Proofs.Session.Moments
import Mend.Proofs.Session.Coherence
import Mend.Proofs.Session.Journal
import Mend.Proofs.Session.Changes
import Mend.Proofs.Turn.Rereading
import Mend.Proofs.Turn.SectionOrder
import Mend.Proofs.Turn.Shape
import Mend.Proofs.Turn.Patches
import Mend.Proofs.Patch.Sources
import Mend.Proofs.Session.Calls
import Mend.Proofs.Session.Overwrites
import Mend.Proofs.Session.Invariant
import Mend.Proofs.Session.ShownChanges
import Mend.Proofs.Disk.Destinations
import Mend.Proofs.Store.Directory
import Mend.Proofs.Session.WorkingTree
import Mend.Proofs.Session.Transcript
import Mend.Proofs.Session.Independence
import Mend.Proofs.Session.Goals
import Mend.Proofs.Session.Confirmation
import Mend.Proofs.Batch.Schedules
import Mend.Proofs.Batch.Records
import Mend.Proofs.Path.Above
import Mend.Proofs.Disk.Subtrees
import Mend.Proofs.Batch.Validity
import Mend.Proofs.Batch.WorkingDirectories
import Mend.Proofs.Store.Separation
import Mend.Proofs.Disk.Walks
import Mend.Proofs.Disk.Folders
import Mend.Proofs.Session.Readings
import Mend.Proofs.Session.LogFolders
import Mend.Proofs.Session.Logs
import Mend.Proofs.CommandLine.Application
import Mend.Proofs.Diff.Tokens
import Mend.Proofs.Toml.Quoted
import Mend.Proofs.Toml.Values
import Mend.Proofs.Toml.Document
import Mend.Proofs.Config.RoundTrip
import Mend.Proofs.Json.Records
import Mend.Proofs.Disk.Growth
import Mend.Proofs.Batch.RecordFiles
import Mend.Proofs.Batch.Reports
import Mend.Proofs.Batch.Tasks
import Mend.Proofs.Batch.Reconciliation
import Mend.Proofs.Turn.RequestedPaths
import Mend.Proofs.Request.PlanPaths
import Mend.Proofs.Patch.Lines
import Mend.Proofs.Patch.Reads
import Mend.Proofs.Patch.Structure
import Mend.Proofs.Patch.Diagnostics
import Mend.Proofs.Patch.Targets
import Mend.Proofs.Patch.LineCounts
import Mend.Proofs.Patch.Cursors
import Mend.Proofs.Patch.FinalLineFeed
import Mend.Proofs.Patch.Contents
import Mend.Proofs.Text.Order
import Mend.Proofs.Store.Suggestions
import Mend.Proofs.Session.Fetches
import Mend.Proofs.Store.Writes
import Mend.Proofs.Store.Confinement
import Mend.Proofs.Json.Nesting
import Mend.Proofs.Json.Syntax
import Mend.Proofs.Command.Capture
