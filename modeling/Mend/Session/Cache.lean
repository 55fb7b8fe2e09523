import Mend.Lookup
import Mend.Store.Basic

/-!
# Cached reads

A session asks the store for a file once: what it has read or written is kept under the key of the
path. The key of a path is the path without the blanks around it and without one `./` in front
(`Cache.key`); `Cache.readThrough` is a read that looks into the cache first.
-/

namespace Mend

/-- Contents by key. -/
structure Cache where
  /-- The contents; the first entry of a key counts. -/
  entries : List (Text × Text) := []
  deriving DecidableEq, Repr

namespace Cache

/-- The key under which the content of a path is kept. -/
def key (path : Text) : Text := Text.dropPrefix ['.', '/'] path.trim

/-- The content under a key. -/
def get? (c : Cache) (key : Text) : Option Text := c.entries.lookup key

/-- The cache with a content under a key. -/
def insert (c : Cache) (key content : Text) : Cache := ⟨(key, content) :: c.entries⟩

@[simp]
theorem get?_insert_self (c : Cache) (key content : Text) :
    (c.insert key content).get? key = some content := by
  simp [insert, get?]

/-- A new content under one key leaves the other keys alone. -/
theorem get?_insert_ne {c : Cache} {key other : Text} (content : Text) (h : other ≠ key) :
    (c.insert key content).get? other = c.get? other :=
  lookup_cons_ne h content c.entries

/-- The content of a path: from the cache, or else from the store, and then kept. -/
def readThrough {ω : Type} (s : Store ω) (path : Text) (c : Cache) (w : ω) :
    Except Failure (Option Text) × Cache × ω :=
  match c.get? (key path) with
  | some content => (.ok (some content), c, w)
  | none =>
    match s.read (key path) w with
    | (.ok (some content), w) => (.ok (some content), c.insert (key path) content, w)
    | (.ok none, w) => (.ok none, c, w)
    | (.error f, w) => (.error f, c, w)

end Cache

end Mend
