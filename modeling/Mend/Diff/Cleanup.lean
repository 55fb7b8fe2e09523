import Mend.Diff.Search
import Mend.Instances

/-!
# Cleaning up a difference

The search leaves several changes where one would do. Each deletion, and then each insertion, is
moved up and then down as far as the kept elements around it allow, and merged with changes of its
kind that it meets (`Diff.compact`). Neighbouring operations of one kind then become one, and a
deletion next to an insertion becomes a replacement (`Diff.merge`).

The list of operations is walked with a zipper: the operations before the current one, nearest
first, the current one, and those after it.
-/

namespace Mend

namespace Diff

/-- A place in a list of operations. -/
structure Place where
  /-- The operations before the current one, nearest first. -/
  before : List Op
  /-- The current operation. -/
  here : Op
  /-- The operations after it. -/
  after : List Op

variable {α : Type} [BEq α]

/-- How many elements at the end of the kept range `k` a change can be moved over. -/
def liftLength (old new : Array α) (k change : Op) : Nat :=
  commonSuffix old new k.oldEnd change.newEnd (min k.oldLength change.newLength)

/-- How many elements at the start of the kept range `k` a change can be moved over. -/
def sinkLength (old new : Array α) (k change : Op) : Nat :=
  commonPrefix old new k.old change.new (min k.oldLength change.newLength)

/-- Operations with `n` more kept elements in front. -/
def keepInFront (k : Op) (n : Nat) : List Op → List Op
  | next :: rest =>
    if next.kind = .keep then (next.move (· - n)).resize (· + n) :: rest else k :: next :: rest
  | [] => [k]

/-- Operations, nearest first, with `n` more kept elements behind. -/
def keepBehind (k : Op) (n : Nat) : List Op → List Op
  | last :: rest => if last.kind = .keep then last.resize (· + n) :: rest else k :: last :: rest
  | [] => [k]

/-- An operation in front of others, unless it is empty. -/
def consNonEmpty (op : Op) (ops : List Op) : List Op := if op.isEmpty then ops else op :: ops

/-- The place after the current change was moved up. -/
def moveUp (old new : Array α) : Nat → Place → Place
  | 0, p => p
  | fuel + 1, p =>
    match p.before with
    | [] => p
    | previous :: before =>
      if previous.kind = .keep then
        let n := liftLength old new previous p.here
        if n = 0 then
          if previous.isEmpty then moveUp old new fuel { p with before } else p
        else
          let kept := Op.keep (previous.oldEnd - n) (p.here.newEnd - n) n
          moveUp old new fuel
            ⟨consNonEmpty (previous.resize (· - n)) before, p.here.move (· - n),
              keepInFront kept n p.after⟩
      else if previous.kind = p.here.kind then
        let n := p.here.oldLength + p.here.newLength
        moveUp old new fuel ⟨before, previous.resize (· + n), p.after⟩
      else moveUp old new fuel ⟨before, p.here, previous :: p.after⟩

/-- The place after the current change was moved down. -/
def moveDown (old new : Array α) : Nat → Place → Place
  | 0, p => p
  | fuel + 1, p =>
    match p.after with
    | [] => p
    | next :: after =>
      if next.kind = .keep then
        let n := sinkLength old new next p.here
        if n = 0 then
          if next.isEmpty then moveDown old new fuel { p with after } else p
        else
          let kept := Op.keep next.old p.here.new n
          moveDown old new fuel
            ⟨keepBehind kept n p.before, p.here.move (· + n),
              consNonEmpty ((next.move (· + n)).resize (· - n)) after⟩
      else if next.kind = p.here.kind then
        let n := next.oldLength + next.newLength
        moveDown old new fuel ⟨p.before, p.here.resize (· + n), after⟩
      else moveDown old new fuel ⟨next :: p.before, p.here, after⟩

/-- The operations with every change of a kind moved up and down, from a place on. -/
def settle (old new : Array α) (kind : OpKind) (bound : Nat) :
    Nat → List Op → List Op → List Op
  | 0, before, ops => before.reverse ++ ops
  | _, before, [] => before.reverse
  | fuel + 1, before, op :: after =>
    if op.kind = kind then
      let p := moveDown old new bound (moveUp old new bound ⟨before, op, after⟩)
      settle old new kind bound fuel (p.here :: p.before) p.after
    else settle old new kind bound fuel (op :: before) after

/-- The operations with deletions and then insertions settled. -/
def compact (old new : Array α) (ops : List Op) : List Op :=
  let bound := (old.size + new.size + ops.length + 2) ^ 2
  let ops := settle old new .delete bound bound [] ops
  settle old new .insert bound bound [] ops

/-! ## Merging -/

/-- Operations that are waiting to become one: kept elements, or a deletion and an insertion. -/
structure Pending where
  kept : Option Op
  deleted : Option Op
  inserted : Option Op

namespace Pending

/-- Nothing is waiting. -/
def none : Pending := ⟨.none, .none, .none⟩

/-- The operation that a waiting deletion and insertion make. -/
def change (p : Pending) : List Op :=
  match p.deleted, p.inserted with
  | some d, some i => [⟨.replace, d.old, d.oldLength, i.new, i.newLength⟩]
  | some d, .none => [d]
  | .none, some i => [i]
  | .none, .none => []

/-- A waiting operation with another one of its kind. -/
def extend (waiting : Option Op) (op : Op) : Op :=
  match waiting with
  | some w =>
    { w with oldLength := w.oldLength + op.oldLength, newLength := w.newLength + op.newLength }
  | .none => op

end Pending

/-- The operations with neighbours merged. -/
def mergeFrom (p : Pending) : List Op → List Op
  | [] => p.kept.toList ++ p.change
  | op :: rest =>
    match op.kind with
    | .keep => p.change ++ mergeFrom ⟨some (Pending.extend p.kept op), none, none⟩ rest
    | .delete =>
      p.kept.toList ++ mergeFrom ⟨none, some (Pending.extend p.deleted op), p.inserted⟩ rest
    | .insert =>
      p.kept.toList ++ mergeFrom ⟨none, p.deleted, some (Pending.extend p.inserted op)⟩ rest
    | .replace => p.kept.toList ++ op :: mergeFrom ⟨none, p.deleted, p.inserted⟩ rest

/-- The operations with neighbours of one kind merged and changes next to each other replaced. -/
def merge (ops : List Op) : List Op := mergeFrom .none ops

/-- The difference of two sequences. -/
def ops (old new : Array α) : List Op := merge (compact old new (search old new))

end Diff

end Mend
