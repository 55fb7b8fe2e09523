import Mend.Patch.Error

/-!
# The lines of a patch

A patch is read line by line, and each line is classified by itself, the line after it and whether
a hunk is open (`Patch.tokenize`). A line that starts with `--- ` inside a hunk is a file header
only when the next line starts with `+++ `; otherwise it removes a line that starts with `--`. A
line that starts with `@@` must be a hunk header.

Both the structural view of a patch and its application read these tokens.
-/

namespace Mend

/-- The numbers of a hunk header. -/
structure HunkHeader where
  /-- First line on the old side. -/
  oldStart : Nat
  /-- Number of lines on the old side. -/
  oldLength : Nat
  /-- First line on the new side. -/
  newStart : Nat
  /-- Number of lines on the new side. -/
  newLength : Nat
  deriving DecidableEq, Repr

/-- How many lines of the new file stand before the hunk. An empty new side names the line before
the change, so its start is that number already. -/
def HunkHeader.cursor (h : HunkHeader) : Nat :=
  if h.newLength = 0 then h.newStart else h.newStart - 1

/-- What a line of a patch is. The path of a header is absent for the null device. -/
inductive TokenKind where
  | oldHeader (path : Option Text)
  | newHeader (path : Option Text)
  | hunk (header : HunkHeader)
  | remove (text : Text)
  | add (text : Text)
  | context (text : Text)
  /-- The line before ends without a line feed. -/
  | noNewline
  /-- A line outside of hunks, or one that no rule covers. -/
  | other
  deriving DecidableEq, Repr

/-- A line of a patch with its number, counted from one. -/
structure Token where
  line : Nat
  kind : TokenKind
  deriving DecidableEq, Repr

namespace Patch

/-- The path that stands for no file. -/
def nullDevice : Text := "/dev/null".toList

/-- What starts the header of an old side. -/
def oldMark : Text := "--- ".toList

/-- What starts the header of a new side. -/
def newMark : Text := "+++ ".toList

/-- What starts and ends a hunk header. -/
def hunkMark : Text := ['@', '@']

/-- The path of a file header: what stands before a tab, trimmed, without the side's `a/` or `b/`
and without `./`. -/
def headerPath (raw : Text) : Option Text :=
  let path := Text.trim (raw.takeWhile (· != '\t'))
  if path = nullDevice then none
  else
    let path := ((Text.dropPrefix? ['a', '/'] path).or (Text.dropPrefix? ['b', '/'] path)).getD path
    some (Text.dropPrefix ['.', '/'] path)

/-! ## Hunk headers -/

/-- A number of at most 64 bits, with or without a plus sign. -/
def number? (t : Text) : Option Nat :=
  match (Text.dropPrefix ['+'] t).toNat? with
  | some n => if n < 2 ^ 64 then some n else none
  | none => none

/-- The start and the length of a range; a missing length is one. -/
def range? (t : Text) : Option (Nat × Nat) :=
  match Text.cutFirst? ',' t with
  | some (start, length) => do
    let start ← number? start
    let length ← number? length
    return (start, length)
  | none => (number? t).map (·, 1)

/-- The text before the last hunk mark that does not stand at the start. -/
def beforeLastMark? : Text → Option Text
  | [] => none
  | c :: rest =>
    match beforeLastMark? rest with
    | some front => some (c :: front)
    | none => if hunkMark.isPrefixOf rest then some [c] else none

/-- The two ranges of a hunk header, as they are written. The second one reaches as far as the
closing mark allows. -/
def headerRanges? (line : Text) : Option (Text × Text) := do
  let visible := fun c => !Text.isBlank c
  let rest ← Text.dropPrefix? hunkMark line
  let rest ← Text.dropPrefix? ['-'] rest.trimStart
  let old := rest.takeWhile visible
  let rest := rest.dropWhile visible
  let after ← Text.dropPrefix? ['+'] (Text.trimStart rest)
  let run := after.takeWhile visible
  -- a blank has to follow the old range, and neither range is empty
  if old.isEmpty || !(rest.head?.any Text.isBlank) || run.isEmpty then none
  else if hunkMark.isPrefixOf (Text.trimStart (after.dropWhile visible)) then some (old, run)
  else (beforeLastMark? run).map (old, ·)

/-- The hunk header on a line. -/
def hunkHeader? (line : Text) : Option HunkHeader := do
  let (old, new) ← headerRanges? line
  let (oldStart, oldLength) ← range? old
  let (newStart, newLength) ← range? new
  return ⟨oldStart, oldLength, newStart, newLength⟩

/-! ## Lines -/

/-- What a line of a hunk is, by its first character. A blank line stands for an empty context
line that lost its space. -/
def hunkLine : Text → TokenKind
  | [] => .context []
  | '-' :: t => .remove t
  | '+' :: t => .add t
  | ' ' :: t => .context t
  | '\\' :: _ => .noNewline
  | _ => .other

/-- Where the reader of lines stands. -/
structure LineState where
  /-- Whether a hunk is open. -/
  inHunk : Bool
  /-- Whether the line before was the header of an old side. -/
  afterOld : Bool

/-- What a line is, given the line after it. -/
def classify (s : LineState) (number : Nat) (line : Text) (next : Option Text) :
    Except PatchError TokenKind :=
  match Text.dropPrefix? oldMark line, Text.dropPrefix? newMark line with
  | some path, _ =>
    -- in a hunk, a removed line that starts with `-- ` looks the same; the next line decides
    if !s.inHunk || next.any newMark.isPrefixOf then .ok (.oldHeader (headerPath path))
    else .ok (hunkLine line)
  | none, some path =>
    if s.afterOld || !s.inHunk then .ok (.newHeader (headerPath path)) else .ok (hunkLine line)
  | none, none =>
    if hunkMark.isPrefixOf line then
      match hunkHeader? line with
      | some header => .ok (.hunk header)
      | none => .error (.unparseableHeader number line)
    else if s.inHunk then .ok (hunkLine line)
    else .ok .other

/-- The state after a line of a kind. -/
def LineState.after (s : LineState) : TokenKind → LineState
  | .oldHeader _ => ⟨false, true⟩
  | .newHeader _ => ⟨false, false⟩
  | .hunk _ => ⟨true, false⟩
  | _ => ⟨s.inHunk, false⟩

/-- The tokens of the lines from a number on. -/
def tokenizeFrom (s : LineState) (number : Nat) : List Text → Except PatchError (List Token)
  | [] => .ok []
  | line :: rest =>
    match classify s number line rest.head? with
    | .error e => .error e
    | .ok kind =>
      match tokenizeFrom (s.after kind) (number + 1) rest with
      | .error e => .error e
      | .ok tokens => .ok (⟨number, kind⟩ :: tokens)

/-- The lines of a patch: what stands between line feeds, without the one that ends the patch and
without one carriage return at the end of each. -/
def patchLines (t : Text) : List Text :=
  ((Text.dropSuffix [Text.lf] t).splitOn Text.lf).map Text.dropCr

/-- The tokens of a patch. -/
def tokenize (t : Text) : Except PatchError (List Token) :=
  tokenizeFrom ⟨false, false⟩ 1 (patchLines t)

end Patch

end Mend
