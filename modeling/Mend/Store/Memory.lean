import Mend.Lookup
import Mend.Similarity
import Mend.Store.Basic

/-!
# Stores in memory

A store that keeps contents under their exact paths. Writes to some paths can be denied. Listings
and suggestions see the paths in the order of code points; a directory is there when some path goes
through it.
-/

namespace Mend

/-- The contents of a store in memory. -/
structure MemoryFiles where
  /-- The contents by path; the first entry of a path counts. -/
  files : List (Text × Text)
  /-- The paths that cannot be written. -/
  denied : List Text
  /-- The paths of all reads, latest first. -/
  reads : List Text
  deriving DecidableEq, Repr

namespace MemoryFiles

/-- The content under a path. -/
def content? (m : MemoryFiles) (path : Text) : Option Text := m.files.lookup path

/-- The contents with another one under a path. -/
def put (m : MemoryFiles) (path content : Text) : MemoryFiles :=
  { m with files := (path, content) :: m.files.filter fun f => f.1 ≠ path }

@[simp]
theorem content?_put_self (m : MemoryFiles) (path content : Text) :
    (m.put path content).content? path = some content := by
  simp [put, content?]

/-- A new content under one path leaves the other paths alone. -/
theorem content?_put_ne {m : MemoryFiles} {path other : Text} (content : Text)
    (h : other ≠ path) : (m.put path content).content? other = m.content? other := by
  rw [put, content?, lookup_cons_ne h, lookup_filter_ne h, content?]

/-- The paths in order. -/
def paths (m : MemoryFiles) : List Text := (m.files.map Prod.fst).mergeSort Text.le

/-- What the paths of a directory start with. -/
def directoryPrefix (path : Text) : Text :=
  let dir := Text.dropEndWhile (· == '/') (path.dropWhile (· == '/'))
  if dir.isEmpty || dir = ['.'] then [] else dir ++ ['/']

/-- The entries that a path below a directory gives down to a depth. -/
def entriesOf (front : Text) (depth : Nat) (path : Text) : List Text :=
  let names := (path.drop front.length).splitOn '/'
  (List.range (min names.length depth)).map fun i =>
    front ++ Text.joinWith ['/'] (names.take (i + 1)) ++
      (if i + 1 < names.length then ['/'] else [])

/-- The entries below a directory; nothing when there are none, but for the whole store. -/
def list (m : MemoryFiles) (path : Text) (depth : Nat) : Option (List Text) :=
  let front := directoryPrefix path
  let below := m.paths.filter front.isPrefixOf
  let entries := (below.flatMap (entriesOf front depth)).eraseDups
  if entries.isEmpty && !front.isEmpty then none else some (entries.mergeSort Text.le)

/-- The failure of a write that is denied. -/
def deniedFailure (path : Text) : Failure := .ofText ("permission denied: ".toList ++ path)

/-- The store that the contents make. -/
def store : Store MemoryFiles where
  read path m := (.ok (m.content? path), { m with reads := path :: m.reads })
  write path content m :=
    if path ∈ m.denied then (.error (deniedFailure path), m) else (.ok (), m.put path content)
  list path depth m := (.ok (m.list path depth), m)
  suggest path m := (Similarity.rank path m.paths, m)

/-- A write is denied and changes nothing, or gives the path the content. -/
theorem write_cases {path content : Text} {m m' : MemoryFiles} {x : Except Failure Unit}
    (h : store.write path content m = (x, m')) :
    (path ∈ m.denied ∧ x = .error (deniedFailure path) ∧ m' = m) ∨
      (path ∉ m.denied ∧ x = .ok () ∧ m' = m.put path content) := by
  by_cases hdenied : path ∈ m.denied
  · simp only [store, if_pos hdenied, Prod.mk.injEq] at h
    exact .inl ⟨hdenied, h.1.symm, h.2.symm⟩
  · simp only [store, if_neg hdenied, Prod.mk.injEq] at h
    exact .inr ⟨hdenied, h.1.symm, h.2.symm⟩

end MemoryFiles

end Mend
