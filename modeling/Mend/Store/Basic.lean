import Mend.Failure

/-!
# Stores

The tree that a session reads and patches, seen through four operations on a world `ω` that holds
it. Nothing is assumed about a store: any operation may fail, and reading may change the world.
`Store.logged` is a store that also writes down the calls that are made on it.
-/

namespace Mend

/-- The operations of a store. Paths have slashes between names and are relative to the store. -/
structure Store (ω : Type) where
  /-- The content of a file; nothing when there is no such file. -/
  read : Text → ω → Except Failure (Option Text) × ω
  /-- Gives a file a content. -/
  write : Text → Text → ω → Except Failure Unit × ω
  /-- The entries below a directory down to a depth, directories with a slash behind; nothing when
  there is no such directory. -/
  list : Text → Nat → ω → Except Failure (Option (List Text)) × ω
  /-- Existing paths that resemble one that was not found. -/
  suggest : Text → ω → List Text × ω

/-- A call on a store, with what came of it. -/
inductive StoreCall where
  /-- A read: an error, or whether there was a content. -/
  | read (path : Text) (found : Option Bool)
  /-- A write and whether it succeeded. -/
  | write (path : Text) (ok : Bool)
  | list (path : Text) (depth : Nat)
  | suggest (path : Text)
  deriving DecidableEq, Repr

/-- A store on a world that also holds the calls made so far. -/
def Store.logged {ω : Type} (s : Store ω) : Store (ω × List StoreCall) where
  read path w :=
    let (r, ω) := s.read path w.1
    let found : Option Bool :=
      match r with
      | .ok content => some content.isSome
      | .error _ => none
    (r, ω, w.2 ++ [.read path found])
  write path content w :=
    let (r, ω) := s.write path content w.1
    (r, ω, w.2 ++ [.write path r.toBool])
  list path depth w :=
    let (r, ω) := s.list path depth w.1
    (r, ω, w.2 ++ [.list path depth])
  suggest path w :=
    let (r, ω) := s.suggest path w.1
    (r, ω, w.2 ++ [.suggest path])

/-- A store on a part of a world. -/
def Store.onPart {ω σ : Type} (part : ω → σ) (put : ω → σ → ω) (s : Store σ) : Store ω where
  read path w :=
    let (r, p) := s.read path (part w)
    (r, put w p)
  write path content w :=
    let (r, p) := s.write path content (part w)
    (r, put w p)
  list path depth w :=
    let (r, p) := s.list path depth (part w)
    (r, put w p)
  suggest path w :=
    let (r, p) := s.suggest path (part w)
    (r, put w p)

end Mend
