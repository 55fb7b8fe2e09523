import Mend.Disk

/-!
# Failures

What went wrong, from what was being done to why it failed: the contexts, outermost first, and the
cause. A failure is shown by its outermost text alone, or as the whole chain. An error of a disk
becomes a failure that names what was being done to which path (`DiskError.failure`).
-/

namespace Mend

/-- A chain of texts, the outermost first. -/
structure Failure where
  /-- The outermost text. -/
  outer : Text
  /-- The texts below it. -/
  causes : List Text := []
  deriving DecidableEq, Repr

namespace Failure

/-- A failure without context. -/
def ofText (t : Text) : Failure := ⟨t, []⟩

/-- A failure inside of something that was being done. -/
def within (context : Text) (f : Failure) : Failure := ⟨context, f.outer :: f.causes⟩

/-- The whole chain. -/
def chain (f : Failure) : Text := Text.joinWith [':', ' '] (f.outer :: f.causes)

end Failure

/-- A disk error inside of something that was being done to a path. -/
def DiskError.failure (doing : String) (path : Text) (e : DiskError) : Failure :=
  (Failure.ofText e.message).within (doing.toList ++ ' ' :: path)

/-- A result with its failure put into a context. -/
def Except.inContext {α : Type} (context : Text) : Except Failure α → Except Failure α
  | .ok a => .ok a
  | .error f => .error (f.within context)

end Mend
