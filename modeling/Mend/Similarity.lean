import Mend.Diff.Cleanup
import Mend.Text.Lowercase

/-!
# Similar paths

When a file is not found, existing paths are ranked as replacements for it. A path scores only if
its name is the wanted one, its stem contains the wanted stem, or the two names are spelled alike
(`Similarity.nameRatio`); extension and directories in common add to that. `Similarity.rank` keeps
the best five, ordered by score and then by path.
-/

namespace Mend

namespace Similarity

/-- The part after the last slash. -/
def lastPart (path : Text) : Text :=
  match Text.cutLast? '/' path with
  | some (_, name) => name
  | none => path

/-- The part before the last slash; empty without one. -/
def directory (path : Text) : Text :=
  match Text.cutLast? '/' path with
  | some (dir, _) => dir
  | none => []

/-- The stem and the extension of a name; a point at the start begins no extension. -/
def stemAndExtension (name : Text) : Text × Text :=
  match Text.cutLast? '.' name with
  | some (stem, ext) => if stem.isEmpty then (name, []) else (stem, ext)
  | none => (name, [])

/-- The number of elements that a difference keeps. -/
def keptLength (ops : List Diff.Op) : Nat :=
  ((ops.filter fun op => op.kind = .keep).map Diff.Op.oldLength).sum

/-- How alike two names are, case aside: twice the number of characters in common over the number of
all characters. -/
def nameRatio (a b : Text) : Float32 :=
  let a := a.lowercase.toArray
  let b := b.lowercase.toArray
  let total := a.size + b.size
  if total = 0 then 1
  else 2 * (keptLength (Diff.ops a b)).toUInt64.toFloat32 / total.toUInt64.toFloat32

/-- The least likeness that counts as a misspelling. -/
def leastRatio : Float32 := 0.6

/-- The directories that two paths have in common at equal places. -/
def sharedDirectories (a b : Text) : Nat :=
  (((a.splitOn '/').zip (b.splitOn '/')).filter fun (x, y) => !x.isEmpty && x = y).length

/-- How well a candidate replaces a path; zero when it is unrelated. -/
def score (target candidate : Text) : Nat :=
  let (targetStem, targetExt) := stemAndExtension (lastPart target)
  let (stem, ext) := stemAndExtension (lastPart candidate)
  let ratio := nameRatio (lastPart target) (lastPart candidate)
  let sameName := lastPart target = lastPart candidate
  let containsStem := !targetStem.isEmpty && Text.hasInfix targetStem stem
  if !sameName && !containsStem && ratio < leastRatio then 0
  else
    (if sameName then 100 else 0) + (if !targetExt.isEmpty && targetExt = ext then 50 else 0) +
      (if containsStem then 30 else 0) +
      10 * sharedDirectories (directory target) (directory candidate) +
      (ratio * 20).round.toUInt32.toNat

/-- How many suggestions are made at most. -/
def maxSuggestions : Nat := 5

/-- Whether a scored path is listed before or with another: by score from high to low, then by
path. -/
def listedBefore (a b : Nat × Text) : Bool :=
  if a.1 = b.1 then Text.le a.2 b.2 else b.1 < a.1

/-- The candidates that score, with their scores, best first. -/
def ranked (score : Text → Nat) (candidates : List Text) : List (Nat × Text) :=
  ((candidates.map fun c => (score c, c)).filter fun s => 0 < s.1).mergeSort listedBefore

/-- The best candidates for a path. -/
def rank (target : Text) (candidates : List Text) : List Text :=
  ((ranked (score target) candidates).take maxSuggestions).map Prod.snd

end Similarity

end Mend
