import Mend.Patch.Buffer
import Mend.Patch.Token

/-!
# Applying a patch

A patch is applied to contents that a loader supplies, token by token (`Patch.apply`). The engine is
tolerant: a removed line that differs from the line at the cursor is skipped with a warning, context
lines only move the cursor, and a file that is not found starts empty. A file that cannot be read is
left out. In strict mode a removed or context line that differs rejects the patch.

The loader is a function on a state of its own, so that what a caller's loader remembers is threaded
through, also when the patch is rejected. The rule that moves the cursor over context lines is a
parameter (`CursorRule`): patches are applied with cursors of 64 bits that stop at their greatest
value.
-/

namespace Mend

/-- What a loader knows about a file. -/
inductive Loaded where
  /-- The content of the file. -/
  | content (t : Text)
  /-- There is no such file. -/
  | notFound
  /-- The file may exist but cannot be read. -/
  | unreadable (reason : Text)
  deriving DecidableEq, Repr

/-- What an applied patch could not do. -/
inductive PatchWarning where
  /-- The file was not found and counted as empty. -/
  | fileNotFound (path : Text)
  /-- A removed line differs from what is found, or nothing is found there. -/
  | removalMismatch (path : Text) (line : Nat) (expected : Text) (found : Option Text)
  /-- Files are not deleted. -/
  | deletionSkipped (path : Text)
  /-- The file could not be read; its hunks were skipped. -/
  | targetUnreadable (path reason : Text)
  deriving DecidableEq, Repr

/-- The text of a warning. -/
def PatchWarning.message : PatchWarning → Text
  | fileNotFound path => path ++ ": file not found, applied against an empty file".toList
  | removalMismatch path line expected found =>
    path ++ ": removal at patch line ".toList ++ Text.ofNat line ++ " skipped, expected ".toList ++
      expected.quoted ++
      match found with
      | some t => " but found ".toList ++ t.quoted
      | none => " past end of file".toList
  | deletionSkipped path => path ++ ": file deletion is not supported, left unchanged".toList
  | targetUnreadable path reason =>
    path ++ ": could not be read (".toList ++ reason ++ "), edits skipped".toList

/-- A file that a patch produced. -/
structure PatchedFile where
  path : Text
  content : Text
  deriving DecidableEq, Repr

/-- What an accepted patch produced: the files in the order in which they were first touched, and
the warnings in order. -/
structure ApplyResult where
  files : List PatchedFile := []
  warnings : List PatchWarning := []
  deriving DecidableEq, Repr

namespace ApplyResult

/-- The content that the result has for a path. -/
def content? (files : List PatchedFile) (path : Text) : Option Text :=
  (files.find? fun f => f.path = path).map PatchedFile.content

/-- The files with a content for a path, in its old place or at the end. -/
def upsert (path content : Text) : List PatchedFile → List PatchedFile
  | [] => [⟨path, content⟩]
  | f :: rest => if f.path = path then ⟨path, content⟩ :: rest else f :: upsert path content rest

/-- The produced files as text: each under its path, with a blank line between two. -/
def rendered (r : ApplyResult) : Text :=
  Text.trimEnd (Text.joinWith ['\n', '\n'] (r.files.map fun f =>
    "--- ".toList ++ f.path ++ Text.lf :: Text.dropEndWhile (· == Text.lf) f.content))

end ApplyResult

/-- How a cursor moves over one line. -/
structure CursorRule where
  advance : Nat → Nat

namespace CursorRule

/-- The greatest cursor of 64 bits. -/
def top : Nat := 2 ^ 64 - 1

/-- A cursor of 64 bits that stops at its greatest value. -/
def word : CursorRule := ⟨fun c => min (c + 1) top⟩

/-- A cursor without bound. -/
def unbounded : CursorRule := ⟨fun c => c + 1⟩

end CursorRule

namespace Patch

/-- The kind of the last line of a hunk, which a missing line feed refers to. -/
inductive LastLine where
  | removed
  | added
  | kept
  deriving DecidableEq, Repr

/-- The file whose hunks are being applied. -/
structure OpenFile where
  path : Text
  buffer : LineBuffer
  /-- Whether the file existed or is created on purpose. -/
  present : Bool
  deriving DecidableEq, Repr

/-- Where the engine stands. -/
structure Engine where
  /-- The files that are finished. -/
  files : List PatchedFile := []
  /-- The warnings so far. -/
  warnings : List PatchWarning := []
  /-- The file that is open. -/
  opened : Option OpenFile := none
  /-- The path of the last old header. -/
  oldPath : Option Text := none
  /-- Whether the last old header named no file. -/
  creating : Bool := false
  /-- The line of the buffer that the next token is about, counted from zero. -/
  cursor : Nat := 0
  /-- The kind of the last line. -/
  last : LastLine := .kept
  deriving DecidableEq, Repr

namespace Engine

/-- The engine with one more warning. -/
def warn (e : Engine) (w : PatchWarning) : Engine := { e with warnings := e.warnings ++ [w] }

/-- The engine with the open file finished. A file that was not found and got no lines is
dropped. -/
def flush (e : Engine) : Engine :=
  match e.opened with
  | none => e
  | some f =>
    if !f.present && f.buffer.lines.isEmpty then { e with opened := none }
    else
      { e with opened := none, files := ApplyResult.upsert f.path f.buffer.content e.files }

/-- The engine with a file opened for what is known about it. -/
def openLoaded (e : Engine) (path : Text) (creating : Bool) : Loaded → Engine
  | .content t => { e with opened := some ⟨path, .ofContent t, true⟩ }
  -- only an old side without a file tells a new file from a missing one
  | .notFound =>
    if creating then { e with opened := some ⟨path, .empty, true⟩ }
    else { e.warn (.fileNotFound path) with opened := some ⟨path, .empty, false⟩ }
  | .unreadable reason => e.warn (.targetUnreadable path reason)

/-- The engine after the header of a new side. A file that the patch has touched before is taken
from the finished files and not loaded again. -/
def openFile {σ : Type} (load : σ → Text → Loaded × σ) (e : Engine) (path : Text) (s : σ) :
    Engine × σ :=
  let e := e.flush
  -- `creating` speaks of the file that is opened now and is used up by it
  let ready := { e with creating := false, cursor := 0 }
  match ApplyResult.content? e.files path with
  | some t => (ready.openLoaded path e.creating (.content t), s)
  | none =>
    let (known, s) := load s path
    (ready.openLoaded path e.creating known, s)

/-- The engine after the header of an old side. -/
def oldHeader (e : Engine) (path : Option Text) : Engine :=
  { e.flush with creating := path.isNone, oldPath := path }

/-- The engine after the header of a new side without a file. -/
def skipDeletion (e : Engine) : Engine :=
  match e.flush.oldPath with
  | some path => e.flush.warn (.deletionSkipped path)
  | none => e.flush

/-- The engine after a removed line of the open file. -/
def removeLine (strict : Bool) (e : Engine) (f : OpenFile) (line : Nat) (expected : Text) :
    Except PatchError Engine :=
  let found := f.buffer.lines[e.cursor]?
  if found = some expected then
    let buffer := { f.buffer with lines := f.buffer.lines.eraseIdx e.cursor }
    .ok { e with last := .removed, opened := some { f with buffer } }
  -- the line stays and the cursor too, so that the next removal is tried at the same place
  else if strict then .error (.removalMismatch line f.path expected found)
  else .ok { e.warn (.removalMismatch f.path line expected found) with last := .removed }

/-- The engine after an added line of the open file. -/
def addLine (e : Engine) (f : OpenFile) (added : Text) : Engine :=
  -- a cursor past the end adds at the end
  let place := min e.cursor f.buffer.lines.length
  let buffer := { f.buffer with lines := f.buffer.lines.insertIdx place added }
  { e with last := .added, opened := some { f with buffer }, cursor := place + 1 }

/-- The engine after a context line of the open file. -/
def keepLine (rule : CursorRule) (strict : Bool) (e : Engine) (f : OpenFile) (line : Nat)
    (expected : Text) : Except PatchError Engine :=
  let found := f.buffer.lines[e.cursor]?
  if strict && found ≠ some expected then .error (.contextMismatch line f.path expected found)
  else .ok { e with last := .kept, cursor := rule.advance e.cursor }

/-- The engine after the mark of a missing line feed. After a removed line the new side has its line
feed again. -/
def markEnd (e : Engine) (f : OpenFile) : Engine :=
  { e with opened := some { f with buffer := { f.buffer with ended := e.last = .removed } } }

/-- The engine after a token that needs no loader. Lines outside of an open file are dropped. -/
def step (rule : CursorRule) (strict : Bool) (e : Engine) (token : Token) :
    Except PatchError Engine :=
  match token.kind, e.opened with
  | .oldHeader path, _ => .ok (e.oldHeader path)
  | .newHeader none, _ => .ok e.skipDeletion
  -- a hunk header places the cursor even when no file is open
  | .hunk header, _ => .ok { e with cursor := header.cursor, last := .kept }
  | .remove expected, some f => e.removeLine strict f token.line expected
  | .add added, some f => .ok (e.addLine f added)
  | .context expected, some f => e.keepLine rule strict f token.line expected
  | .noNewline, some f => .ok (e.markEnd f)
  | _, _ => .ok e

/-- The engine after the tokens, and the loader's state when it stopped. -/
def run {σ : Type} (rule : CursorRule) (strict : Bool) (load : σ → Text → Loaded × σ) :
    List Token → Engine → σ → Except PatchError Engine × σ
  | [], e, s => (.ok e, s)
  | ⟨_, .newHeader (some path)⟩ :: rest, e, s =>
    let (e, s) := e.openFile load path s
    run rule strict load rest e s
  | token :: rest, e, s =>
    match e.step rule strict token with
    | .error err => (.error err, s)
    | .ok e => run rule strict load rest e s

/-- What the engine has produced. -/
def result (e : Engine) : ApplyResult := ⟨e.flush.files, e.flush.warnings⟩

end Engine

/-- A patch applied with a rule for its cursors. -/
def applyWith {σ : Type} (rule : CursorRule) (strict : Bool) (load : σ → Text → Loaded × σ)
    (patch : Text) (s : σ) : Except PatchError ApplyResult × σ :=
  match tokenize patch with
  | .error err => (.error err, s)
  | .ok tokens =>
    match Engine.run rule strict load tokens {} s with
    | (.error err, s) => (.error err, s)
    | (.ok e, s) => (.ok e.result, s)

/-- A patch applied to what the loader supplies, and the loader's state afterwards. -/
def apply {σ : Type} (strict : Bool) (load : σ → Text → Loaded × σ) (patch : Text) (s : σ) :
    Except PatchError ApplyResult × σ :=
  applyWith .word strict load patch s

end Patch

end Mend
