import Mend.Diff.Op

/-!
# Searching for a short difference

A shortest list of deletions and insertions is found by divide and conquer: what two ranges share at
their ends is kept, and the rest is cut at the middle of a shortest path, which a search from both
ends finds (`Diff.middle?`). Each end advances one diagonal at a time and remembers the furthest
point that it has reached on each (`Diff.Frontier`).
-/

namespace Mend

namespace Diff

/-- The furthest point on each diagonal; diagonals may be negative. -/
structure Frontier where
  /-- The points, the diagonal zero in the middle. -/
  cells : Array Nat
  /-- The place of the diagonal zero. -/
  centre : Nat

namespace Frontier

/-- A frontier for diagonals up to `bound` on either side. -/
def ofBound (bound : Nat) : Frontier := ⟨Array.replicate (2 * bound + 1) 0, bound⟩

/-- The point on a diagonal. -/
def get (v : Frontier) (k : Int) : Nat := v.cells.getD (v.centre + k).toNat 0

/-- The frontier with a point on a diagonal. -/
def set (v : Frontier) (k : Int) (x : Nat) : Frontier :=
  { v with cells := v.cells.setIfInBounds (v.centre + k).toNat x }

/-- Where the step to diagonal `k` starts when the search is `d` edits deep. -/
def entry (v : Frontier) (d k : Int) : Nat :=
  if k = -d || (k ≠ d && v.get (k - 1) < v.get (k + 1)) then v.get (k + 1) else v.get (k - 1) + 1

end Frontier

/-- A part of the two sequences: the elements from `old` to `oldEnd` and from `new` to `newEnd`. -/
structure Window where
  old : Nat
  oldEnd : Nat
  new : Nat
  newEnd : Nat

variable {α : Type} [BEq α]

/-- The two frontiers of a search. -/
structure Fronts where
  /-- The furthest points from the start. -/
  forward : Frontier
  /-- The furthest points from the end. -/
  backward : Frontier

/-- The forward steps at depth `d` on the diagonals `d - 2 * i` and below, or the cut that is found
on the way. -/
def forwardSteps (old new : Array α) (w : Window) (d : Nat) :
    Nat → Fronts → (Nat × Nat) ⊕ Fronts
  | 0, f => .inr f
  | left + 1, f =>
    let n := w.oldEnd - w.old
    let m := w.newEnd - w.new
    let delta : Int := n - m
    let k : Int := 2 * left - d
    let x := f.forward.entry d k
    let y := (x - k).toNat
    let reach := x + commonPrefix old new (w.old + x) (w.new + y) (min (n - x) (m - y))
    let f := { f with forward := f.forward.set k reach }
    -- the two searches meet on a forward step only when the sizes differ by an odd number
    if delta % 2 = 1 && (k - delta).natAbs + 1 ≤ d && reach + f.backward.get (delta - k) ≥ n then
      .inl (w.old + x, w.new + y)
    else forwardSteps old new w d left f

/-- The backward steps at depth `d`, as the forward ones. -/
def backwardSteps (old new : Array α) (w : Window) (d : Nat) :
    Nat → Fronts → (Nat × Nat) ⊕ Fronts
  | 0, f => .inr f
  | left + 1, f =>
    let n := w.oldEnd - w.old
    let m := w.newEnd - w.new
    let delta : Int := n - m
    let k : Int := 2 * left - d
    let x := f.backward.entry d k
    let y := (x - k).toNat
    let shared := commonSuffix old new (w.oldEnd - x) (w.newEnd - y) (min (n - x) (m - y))
    let reach := x + shared
    let f := { f with backward := f.backward.set k reach }
    -- and on a backward step only when they differ by an even number
    if delta % 2 = 0 && (k - delta).natAbs ≤ d && reach + f.forward.get (delta - k) ≥ n then
      .inl (w.oldEnd - reach, w.newEnd - (y + shared))
    else backwardSteps old new w d left f

/-- The depths from `d` on, at most `fuel` of them. -/
def deepen (old new : Array α) (w : Window) : Nat → Nat → Fronts → Option (Nat × Nat)
  | 0, _, _ => none
  | fuel + 1, d, f =>
    match forwardSteps old new w d (d + 1) f with
    | .inl cut => some cut
    | .inr f =>
      match backwardSteps old new w d (d + 1) f with
      | .inl cut => some cut
      | .inr f => deepen old new w fuel (d + 1) f

/-- The place at which a shortest path through the window is cut. -/
def middle? (old new : Array α) (w : Window) : Option (Nat × Nat) :=
  let bound := ((w.oldEnd - w.old) + (w.newEnd - w.new) + 1) / 2 + 1
  deepen old new w bound 0 ⟨.ofBound (bound + 1), .ofBound (bound + 1)⟩

/-- The operations on a window; `fuel` bounds how often it is cut. -/
def conquer (old new : Array α) : Nat → Window → List Op
  | 0, w =>
    [.delete w.old (w.oldEnd - w.old) w.new, .insert w.old w.new (w.newEnd - w.new)]
  | fuel + 1, w =>
    let front := commonPrefix old new w.old w.new (min (w.oldEnd - w.old) (w.newEnd - w.new))
    let i := w.old + front
    let j := w.new + front
    let back := commonSuffix old new w.oldEnd w.newEnd (min (w.oldEnd - i) (w.newEnd - j))
    let iEnd := w.oldEnd - back
    let jEnd := w.newEnd - back
    let inner : List Op :=
      if i = iEnd && j = jEnd then []
      else if j = jEnd then [.delete i (iEnd - i) j]
      else if i = iEnd then [.insert i j (jEnd - j)]
      else
        match middle? old new ⟨i, iEnd, j, jEnd⟩ with
        | some (x, y) =>
          conquer old new fuel ⟨i, x, j, y⟩ ++ conquer old new fuel ⟨x, iEnd, y, jEnd⟩
        -- without a cut all old lines go and all new ones come
        | none => [.delete i (iEnd - i) j, .insert i j (jEnd - j)]
    (if front = 0 then [] else [.keep w.old w.new front]) ++ inner ++
      (if back = 0 then [] else [.keep iEnd jEnd back])

/-- The operations that the search finds for two sequences. -/
def search (old new : Array α) : List Op :=
  conquer old new (old.size + new.size + 1) ⟨0, old.size, 0, new.size⟩

end Diff

end Mend
