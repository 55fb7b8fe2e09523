/-!
# Edit operations

A difference of two sequences is a list of operations, each about a range of the old sequence and a
range of the new one. Keeping, deleting and inserting are found by the search; a deletion next to an
insertion is shown as one replacement.

The module also holds the two comparisons that the search and its clean-up are made of: how far two
ranges agree from their starts (`Diff.commonPrefix`) and from their ends (`Diff.commonSuffix`).
-/

namespace Mend

namespace Diff

/-- What an operation does. -/
inductive OpKind where
  | keep
  | delete
  | insert
  | replace
  deriving DecidableEq, Repr

/-- An operation on the old range `old, old + oldLength` and the new range `new, new + newLength`.
A deletion has an empty new range and an insertion an empty old one. -/
structure Op where
  kind : OpKind
  old : Nat
  oldLength : Nat
  new : Nat
  newLength : Nat
  deriving DecidableEq, Repr

namespace Op

/-- Keep `length` elements. -/
def keep (old new length : Nat) : Op := ⟨.keep, old, length, new, length⟩

/-- Delete `length` elements. -/
def delete (old length new : Nat) : Op := ⟨.delete, old, length, new, 0⟩

/-- Insert `length` elements. -/
def insert (old new length : Nat) : Op := ⟨.insert, old, 0, new, length⟩

/-- The end of the old range. -/
def oldEnd (op : Op) : Nat := op.old + op.oldLength

/-- The end of the new range. -/
def newEnd (op : Op) : Nat := op.new + op.newLength

/-- Whether both ranges are empty. -/
def isEmpty (op : Op) : Bool := op.oldLength = 0 && op.newLength = 0

/-- The operation with another length, on the sides on which it has one. -/
def resize (f : Nat → Nat) (op : Op) : Op :=
  match op.kind with
  | .keep | .replace => { op with oldLength := f op.oldLength, newLength := f op.newLength }
  | .delete => { op with oldLength := f op.oldLength }
  | .insert => { op with newLength := f op.newLength }

/-- The operation with both ranges moved. -/
def move (f : Nat → Nat) (op : Op) : Op := { op with old := f op.old, new := f op.new }

end Op

variable {α : Type} [BEq α]

/-- How many of the next `most` elements agree. -/
def commonPrefix (old new : Array α) (i j : Nat) : Nat → Nat
  | 0 => 0
  | most + 1 =>
    if old[i]? == new[j]? then commonPrefix old new (i + 1) (j + 1) most + 1 else 0

/-- How many of the last `most` elements before `i` and `j` agree. -/
def commonSuffix (old new : Array α) (i j : Nat) : Nat → Nat
  | 0 => 0
  | most + 1 =>
    if old[i - 1]? == new[j - 1]? then commonSuffix old new (i - 1) (j - 1) most + 1 else 0

end Diff

end Mend
