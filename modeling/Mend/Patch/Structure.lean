import Mend.Patch.Token

/-!
# The structure of a patch

Which files a patch touches and which lines each hunk removes and adds (`Patch.edits`), read off the
same tokens that its application reads, and the number of added and removed lines.
-/

namespace Mend

namespace Patch

/-- One hunk. -/
structure Hunk where
  /-- First line on the new side, counted from one. -/
  startLine : Nat
  /-- The removed lines. -/
  removed : List Text
  /-- The added lines. -/
  added : List Text
  deriving DecidableEq, Repr

/-- The hunks of one file. -/
structure FileEdit where
  /-- The path of the new side, or of the old side if there is no new one. -/
  path : Text
  /-- Whether there is no old side. -/
  creates : Bool
  /-- Whether there is no new side. -/
  deletes : Bool
  /-- The hunks in order. -/
  hunks : List Hunk
  deriving DecidableEq, Repr

/-- A list with its last element changed. -/
def modifyLast {α : Type} (f : α → α) : List α → List α
  | [] => []
  | [a] => [f a]
  | a :: b :: rest => a :: modifyLast f (b :: rest)

/-- The edits after a change of the last hunk of the last file, if there is one. -/
def modifyHunk (f : Hunk → Hunk) (edits : List FileEdit) : List FileEdit :=
  modifyLast (fun e => { e with hunks := modifyLast f e.hunks }) edits

/-- The edits so far and the path of the last old header, after one more token. -/
def addToken (state : List FileEdit × Option Text) (token : Token) :
    List FileEdit × Option Text :=
  let (edits, old) := state
  match token.kind with
  | .oldHeader path => (edits, path)
  | .newHeader path =>
    (edits ++ [⟨(path.or old).getD [], old.isNone, path.isNone, []⟩], old)
  | .hunk header =>
    (modifyLast (fun e => { e with hunks := e.hunks ++ [⟨header.newStart, [], []⟩] }) edits, old)
  | .remove t => (modifyHunk (fun h => { h with removed := h.removed ++ [t] }) edits, old)
  | .add t => (modifyHunk (fun h => { h with added := h.added ++ [t] }) edits, old)
  | .context _ | .noNewline | .other => state

/-- The edits of a patch, file by file. -/
def edits (t : Text) : Except PatchError (List FileEdit) :=
  (tokenize t).map fun tokens => (tokens.foldl addToken ([], none)).1

/-- The number of added and of removed lines. -/
def lineCounts (edits : List FileEdit) : Nat × Nat :=
  let hunks := edits.flatMap FileEdit.hunks
  ((hunks.map fun h => h.added.length).sum, (hunks.map fun h => h.removed.length).sum)

end Patch

end Mend
