import Mend.Config.Basic
import Mend.Diff.Unified
import Mend.Patch.Apply
import Mend.Patch.Structure
import Mend.Prompt
import Mend.Session.Conversation
import Mend.Session.TurnLog

/-!
# Reactions

What a session does about a turn that does not end it, and what it sends in return:

- `Reaction.serve` shows files and listings. What cannot be shown is replaced by a line in brackets,
  so that no failure of the store ends a session;
- `Reaction.applyPatch` applies a patch to what the cache and the store hold, writes every file that
  it produced and reports the changes, the warnings and the writes that failed;
- `Reaction.followUp` sends a prompt that touches no files.

A reaction is a function on the conversation and on the world `ω` of the store.
-/

namespace Mend

/-- What a session sends in return to a turn, and what a patch did. -/
structure Reaction where
  /-- The message. -/
  outbound : Text
  /-- What a patch did. -/
  trace : PatchTrace := {}
  deriving DecidableEq, Repr

namespace Reaction

variable {ω : Type}

/-! ## Serving requests -/

/-- What is shown for a file that is not there. -/
def notFoundText (path : Text) (similar : List Text) : Text :=
  if similar.isEmpty then "[file not found: ".toList ++ path ++ [']']
  else
    "[file not found: ".toList ++ path ++ "; similar files: ".toList ++
      Text.joinWith [',', ' '] similar ++ [']']

/-- What is shown when an attempt at a path fails. -/
def failedText (attempt : String) (path : Text) (f : Failure) : Text :=
  "[could not ".toList ++ attempt.toList ++ ' ' :: path ++ ": ".toList ++ f.chain ++ [']']

/-- What is shown for a file. -/
def fileBody (s : Store ω) (path : Text) (c : Cache) (w : ω) : Text × Cache × ω :=
  match c.readThrough s path w with
  | (.ok (some content), c, w) => (content, c, w)
  | (.ok none, c, w) =>
    let (similar, w) := s.suggest path w
    (notFoundText path similar, c, w)
  | (.error f, c, w) => (failedText "read" path f, c, w)

/-- What is shown for a directory. -/
def listingBody (s : Store ω) (depth : Nat) (path : Text) (w : ω) : Text × ω :=
  match s.list path depth w with
  | (.ok (some entries), w) =>
    (if entries.isEmpty then "[empty directory]".toList else Text.joinWith [Text.lf] entries, w)
  | (.ok none, w) => ("[directory not found: ".toList ++ path ++ [']'], w)
  | (.error f, w) => (failedText "list" path f, w)

/-- The entries of a reply to requests. -/
structure Served where
  /-- The files. -/
  files : List Prompt.Entry := []
  /-- The listings. -/
  listings : List Prompt.Entry := []

/-- Serves requests one by one. -/
def serveEach (s : Store ω) (depth : Nat) :
    List Request → Served → Cache → ω → Served × Cache × ω
  | [], served, c, w => (served, c, w)
  | ⟨.file, path⟩ :: rest, served, c, w =>
    let (body, c, w) := fileBody s path c w
    serveEach s depth rest { served with files := served.files ++ [⟨path, body⟩] } c w
  | ⟨.listing, path⟩ :: rest, served, c, w =>
    let (body, w) := listingBody s depth path w
    serveEach s depth rest { served with listings := served.listings ++ [⟨path, body⟩] } c w

/-- Shows what was requested. -/
def serve (s : Store ω) (cfg : Config) (requests : List Request) (c : Conversation) (w : ω) :
    Reaction × Conversation × ω :=
  let (served, cache, w) := serveEach s cfg.listingDepth requests {} c.cache w
  let notes : Prompt.Notes :=
    { thought := c.last.bind Turn.thought
      plan := c.last.bind Turn.plan
      comment := c.last.map Turn.comment
      goals := c.goals }
  (⟨Prompt.fileReply served.files served.listings notes, {}⟩, { c with cache }, w)

/-! ## Applying patches -/

/-- What a patch finds under a path. -/
def load (s : Store ω) (state : Cache × ω) (path : Text) : Loaded × Cache × ω :=
  match state.1.readThrough s path state.2 with
  | (.ok (some content), state) => (.content content, state)
  | (.ok none, state) => (.notFound, state)
  | (.error f, state) => (.unreadable f.chain, state)

/-- What came of writing the files of a patch. -/
structure Delivery where
  /-- The unified diff of all files. -/
  diff : Text := []
  /-- The files that could not be written, with reasons. -/
  failures : List Text := []

/-- Writes one file that a patch produced. The diff is taken against what the cache holds. -/
def deliverOne (s : Store ω) (file : PatchedFile) (delivery : Delivery) (c : Conversation) (w : ω) :
    Delivery × Conversation × ω :=
  -- a file that is not cached was not found before
  let old := (c.cache.get? (Cache.key file.path)).getD []
  let diff := delivery.diff ++ Text.unifiedDiff file.path old file.content
  match s.write file.path file.content w with
  | (.ok _, w) => ({ delivery with diff }, c.wrote file.path file.content, w)
  -- the diff is shown even for a file that could not be written
  | (.error f, w) =>
    let failure := file.path ++ ": ".toList ++ f.chain
    (⟨diff, delivery.failures ++ [failure]⟩, c, w)

/-- Writes the files that a patch produced. -/
def deliver (s : Store ω) :
    List PatchedFile → Delivery → Conversation → ω → Delivery × Conversation × ω
  | [], delivery, c, w => (delivery, c, w)
  | file :: rest, delivery, c, w =>
    let (delivery, c, w) := deliverOne s file delivery c w
    deliver s rest delivery c w

/-- The number of added and of removed lines in a patch. -/
def lineCounts (patch : Text) : Nat × Nat :=
  match Patch.edits patch with
  | .ok edits => Patch.lineCounts edits
  | .error _ => (0, 0)

/-- Applies a patch and writes what it produced. A rejected patch writes nothing. -/
def applyPatch (s : Store ω) (cfg : Config) (patch : Text) (c : Conversation) (w : ω) :
    Reaction × Conversation × ω :=
  match Patch.apply cfg.strictContext (load s) patch (c.cache, w) with
  -- what was read before the rejection stays in the cache
  | (.error e, cache, w) =>
    (⟨Prompt.patchError e patch c.goals, { error := some e.message }⟩, { c with cache }, w)
  | (.ok result, cache, w) =>
    let (delivery, c, w) := deliver s result.files {} { c with cache } w
    let warnings := result.warnings.map PatchWarning.message
    let (added, removed) := lineCounts patch
    let report : Prompt.PatchReport :=
      { rendered := result.rendered
        diff := delivery.diff
        added, removed, warnings
        writeFailures := delivery.failures }
    (⟨Prompt.patchResult report c.goals,
        { patchedFiles := result.files.map PatchedFile.path, warnings }⟩, c, w)

/-! ## Follow-ups -/

/-- Sends a prompt that touches no files. -/
def followUp (kind : FollowUp) (c : Conversation) : Reaction × Conversation :=
  match kind with
  | .confirmNoChanges =>
    (⟨Prompt.verifyNoChanges (c.last.map Turn.comment) c.goals, {}⟩, { c with confirmed := true })
  | .finalCheck => (⟨Prompt.finalCheck c.written c.goals, {}⟩, { c with confirmed := true })
  | .corrective => (⟨Prompt.corrective c.goals, {}⟩, { c with correctives := c.correctives + 1 })

end Reaction

end Mend
