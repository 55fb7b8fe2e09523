import Mend.Text.Quoted

/-!
# Why a patch is rejected

The causes for which a whole patch is refused, their kinds, the line of the patch that each points
at and their texts.
-/

namespace Mend

/-- Why a patch is rejected. Lines are lines of the patch, counted from one. -/
inductive PatchError where
  /-- A line that starts like a hunk header and is none. -/
  | unparseableHeader (line : Nat) (text : Text)
  /-- A context line that differs from the file; nothing is found past its end. -/
  | contextMismatch (line : Nat) (path expected : Text) (found : Option Text)
  /-- A removed line that differs from the file; nothing is found past its end. -/
  | removalMismatch (line : Nat) (path expected : Text) (found : Option Text)
  deriving DecidableEq, Repr

namespace PatchError

/-- The name of the kind of an error. -/
def kind : PatchError → Text
  | unparseableHeader .. => "UNPARSEABLE_HEADER".toList
  | contextMismatch .. => "CONTEXT_MISMATCH".toList
  | removalMismatch .. => "REMOVAL_MISMATCH".toList

/-- The line of the patch that an error points at. -/
def line : PatchError → Nat
  | unparseableHeader n _ => n
  | contextMismatch n .. => n
  | removalMismatch n .. => n

/-- What stands in the file where a line was expected. -/
def describeFound : Option Text → Text
  | some t => t.quoted
  | none => "end of file".toList

/-- The text of a mismatch. -/
def mismatchMessage (what : Text) (n : Nat) (path expected : Text) (found : Option Text) : Text :=
  what ++ " mismatch in ".toList ++ path ++ " at patch line ".toList ++ Text.ofNat n ++
    ": expected ".toList ++ expected.quoted ++ ", found ".toList ++ describeFound found

/-- The text of an error. -/
def message : PatchError → Text
  | unparseableHeader n t =>
    "unparseable hunk header at patch line ".toList ++ Text.ofNat n ++ ": ".toList ++ t
  | contextMismatch n path expected found => mismatchMessage "context".toList n path expected found
  | removalMismatch n path expected found => mismatchMessage "removal".toList n path expected found

end PatchError

end Mend
