import Mend.Json.Value

/-!
# Requests

A reply asks for files and for directory listings. This module holds the request type, its wire
names, its JSON form and the rule for repeated paths.

Main statements: `Request.distinct` keeps pairwise distinct paths (`Request.distinct_nodup`).
-/

namespace Mend

/-- What is asked for. -/
inductive RequestKind where
  /-- The content of a file. -/
  | file
  /-- The entries below a directory. -/
  | listing
  deriving DecidableEq, Repr

namespace RequestKind

/-- The name of the kind in replies. -/
def wireName : RequestKind → Text
  | file => "FILE_CONTENT".toList
  | listing => "DIRECTORY_LISTING".toList

/-- The kind with a wire name, blanks around it aside. -/
def ofWire? (t : Text) : Option RequestKind :=
  if t.trim = wireName file then some file
  else if t.trim = wireName listing then some listing
  else none

end RequestKind

/-- One file or directory to be shown. -/
structure Request where
  /-- What is asked for. -/
  kind : RequestKind
  /-- The path, relative to the working directory. -/
  path : Text
  deriving DecidableEq, Repr

namespace Request

/-- A request for a file. -/
def file (path : Text) : Request := ⟨.file, path⟩

/-- A request for a listing. -/
def listing (path : Text) : Request := ⟨.listing, path⟩

/-- The members of a request's JSON form, in the order in which they are written. -/
def members (r : Request) : List (Text × Json) :=
  [("type".toList, .text r.kind.wireName), ("path".toList, .text r.path)]

/-- The JSON form of a request. -/
def toJson (r : Request) : Json := .object r.members

/-- The request that a JSON value makes: a text is the path of a file, an object has its path as
`path` or else `filePath` and may have a `type`. -/
def ofJson? : Json → Option Request
  | .text t => t.nonBlank?.map file
  | .object members =>
    let path? := (members.lookup "path".toList).or (members.lookup "filePath".toList)
    match (path?.bind Json.text?).bind Text.nonBlank? with
    | none => none
    | some path =>
      let kind? := ((members.lookup "type".toList).bind Json.text?).bind RequestKind.ofWire?
      some ⟨kind?.getD .file, path⟩
  | _ => none

/-- The requests that a JSON value makes: those of its items, or its own. -/
def listOfJson : Json → List Request
  | .array items => items.filterMap ofJson?
  | other => (ofJson? other).toList

/-- The requests of a list whose path is not among the paths `seen` and not repeated. -/
def distinctFrom (seen : List Text) : List Request → List Request
  | [] => []
  | r :: rest =>
    if r.path ∈ seen then distinctFrom seen rest else r :: distinctFrom (r.path :: seen) rest

/-- The first request for each path, in order. -/
def distinct (rs : List Request) : List Request := distinctFrom [] rs

/-- No kept path is among those seen before. -/
theorem path_notMem_of_mem_distinctFrom {seen : List Text} {rs : List Request} {r : Request}
    (h : r ∈ distinctFrom seen rs) : r.path ∉ seen := by
  induction rs generalizing seen with
  | nil => simp [distinctFrom] at h
  | cons s rest ih =>
    unfold distinctFrom at h
    split at h
    · exact ih h
    · rename_i hs
      rcases List.mem_cons.1 h with rfl | h
      · exact hs
      · exact fun hr => ih h (List.mem_cons_of_mem _ hr)

/-- The kept paths are pairwise distinct. -/
theorem distinct_nodup (rs : List Request) : ((distinct rs).map Request.path).Nodup := by
  suffices h : ∀ seen, ((distinctFrom seen rs).map Request.path).Nodup from h []
  induction rs with
  | nil => intro seen; simp [distinctFrom]
  | cons s rest ih =>
    intro seen
    unfold distinctFrom
    split
    · exact ih seen
    · simp only [List.map_cons, List.nodup_cons]
      refine ⟨fun hmem => ?_, ih _⟩
      obtain ⟨r, hr, hpath⟩ := List.mem_map.1 hmem
      exact path_notMem_of_mem_distinctFrom hr (by simp [hpath])

end Request

end Mend
