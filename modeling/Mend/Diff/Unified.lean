import Mend.Diff.Cleanup
import Mend.Text.Basic

/-!
# Unified diffs

The difference of two versions of a file in the unified format (`Text.unifiedDiff`): changes with
three lines of context, in hunks, under a header with the path on both sides. Which lines change is
a parameter of the format (`Text.unifiedDiffBy`). Lines keep their
terminators, which are a line feed, a carriage return and a line feed, or a carriage return; a last
line without one is marked.
-/

namespace Mend

namespace Text

/-- The lines of a text with their terminators, where `line` is the line so far, last character
first. -/
def terminatedFrom (line : Text) : Text → List Text
  | [] => if line.isEmpty then [] else [line.reverse]
  | '\r' :: '\n' :: rest => (lf :: cr :: line).reverse :: terminatedFrom [] rest
  | c :: rest =>
    if c = cr ∨ c = lf then (c :: line).reverse :: terminatedFrom [] rest
    else terminatedFrom (c :: line) rest

/-- The lines of a text with their terminators. -/
def terminatedLines (t : Text) : List Text := terminatedFrom [] t

end Text

namespace Diff

/-- The number of context lines around a change. -/
def contextLines : Nat := 3

/-- Operations with at most `n` kept lines at the start. -/
def trimFront (n : Nat) : List Op → List Op
  | op :: rest =>
    if op.kind = .keep then
      let extra := op.oldLength - n
      (op.move (· + extra)).resize (· - extra) :: rest
    else op :: rest
  | [] => []

/-- Operations with at most `n` kept lines at the end. -/
def trimBack (n : Nat) : List Op → List Op
  | [] => []
  | [op] => if op.kind = .keep then [op.resize (min n)] else [op]
  | op :: next :: rest => op :: trimBack n (next :: rest)

/-- The operations in groups: a group ends after `n` kept lines, and the next one starts with `n`,
where more than `2 * n` are kept. `group` holds the current group, last operation first. -/
def groupFrom (n : Nat) (group : List Op) : List Op → List (List Op)
  | [] =>
    match group with
    | [] => []
    -- context without a change makes no group
    | [op] => if op.kind = .keep then [] else [[op]]
    | _ => [group.reverse]
  | op :: rest =>
    if op.kind = .keep && 2 * n < op.oldLength then
      -- the first `n` lines end this group and the last `n` start the next one
      let extra := op.oldLength - n
      (op.resize (fun _ => n) :: group).reverse ::
        groupFrom n [(op.move (· + extra)).resize (· - extra)] rest
    else groupFrom n (op :: group) rest

/-- The operations in groups with `n` lines of context. -/
def groups (n : Nat) (ops : List Op) : List (List Op) :=
  groupFrom n [] (trimBack n (trimFront n ops))

/-- A range of a hunk header. An empty range names the line before it; a length of one is left
out. -/
def rangeText (first last : Nat) : Text :=
  match last - first with
  | 0 => Text.ofNat first ++ [',', '0']
  | 1 => Text.ofNat (first + 1)
  | n => Text.ofNat (first + 1) ++ ',' :: Text.ofNat n

/-- The header of a hunk. -/
def hunkHeaderText (group : List Op) : Text :=
  match group.head?, group.getLast? with
  | some first, some last =>
    "@@ -".toList ++ rangeText first.old last.oldEnd ++ " +".toList ++
      rangeText first.new last.newEnd ++ " @@".toList ++ [Text.lf]
  | _, _ => []

/-- Whether a line ends with a terminator. -/
def isTerminated (line : Text) : Bool :=
  line.getLast? = some Text.lf || line.getLast? = some Text.cr

/-- A line of a hunk with its mark in front. -/
def lineText (mark : Char) (line : Text) : Text :=
  if isTerminated line then mark :: line
  else mark :: line ++ "\n\\ No newline at end of file\n".toList

/-- The lines of a range with a mark in front. -/
def rangeLines (mark : Char) (lines : Array Text) (first length : Nat) : Text :=
  ((lines.extract first (first + length)).toList.map (lineText mark)).flatten

/-- The lines of an operation. -/
def opText (old new : Array Text) (op : Op) : Text :=
  match op.kind with
  | .keep => rangeLines ' ' old op.old op.oldLength
  | _ => rangeLines '-' old op.old op.oldLength ++ rangeLines '+' new op.new op.newLength

/-- A hunk: its header and its lines. -/
def hunkText (old new : Array Text) (group : List Op) : Text :=
  hunkHeaderText group ++ group.flatMap (opText old new)

end Diff

/-- The unified diff of two versions of a file; empty when they are equal. The operations that take
the old lines to the new ones are found by `lineDiff`. -/
def Text.unifiedDiffBy (lineDiff : Array Text → Array Text → List Diff.Op) (path old new : Text) :
    Text :=
  if old = new then []
  else
    let a := (Text.terminatedLines old).toArray
    let b := (Text.terminatedLines new).toArray
    let hunks := Diff.groups Diff.contextLines (lineDiff a b)
    if hunks.isEmpty then []
    else
      "--- a/".toList ++ path ++ "\n+++ b/".toList ++ path ++ Text.lf ::
        (hunks.map (Diff.hunkText a b)).flatten

/-- The unified diff of two versions of a file, with a short list of operations. -/
def Text.unifiedDiff (path old new : Text) : Text := Text.unifiedDiffBy Diff.ops path old new

end Mend
