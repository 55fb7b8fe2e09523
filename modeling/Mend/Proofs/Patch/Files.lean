import Mend.Patch.Apply

/-!
# Produced files

The files of a patch as a table by path: `ApplyResult.upsert` gives one path another content and
leaves the others alone, and keeps paths different. `ApplyResult.merge` updates and extends files by
those of a later patch; what it holds for a path is what the later files hold for it, and else what
the earlier ones hold (`ApplyResult.content?_merge`).
-/

namespace Mend

namespace ApplyResult

variable {files older newer : List PatchedFile} {path other : Text}

/-- A path that no file has. -/
def Fresh (files : List PatchedFile) (path : Text) : Prop := ∀ f ∈ files, f.path ≠ path

/-- No two files have one path. -/
def Distinct (files : List PatchedFile) : Prop := (files.map PatchedFile.path).Nodup

theorem content?_of_fresh (h : Fresh files path) : content? files path = none := by
  simpa [content?, Fresh] using h

theorem content?_cons_self (f : PatchedFile) (files : List PatchedFile) :
    content? (f :: files) f.path = some f.content := by
  simp [content?]

theorem content?_cons_ne {f : PatchedFile} (h : f.path ≠ path) (files : List PatchedFile) :
    content? (f :: files) path = content? files path := by
  simp [content?, h]

/-- The first file of distinct ones has a path of its own. -/
theorem Distinct.fresh_head {f : PatchedFile} (h : Distinct (f :: files)) : Fresh files f.path := by
  intro g hg heq
  rw [Distinct, List.map_cons, List.nodup_cons] at h
  exact h.1 (List.mem_map.2 ⟨g, hg, heq⟩)

theorem Distinct.tail {f : PatchedFile} (h : Distinct (f :: files)) : Distinct files :=
  (List.nodup_cons.1 h).2

/-- A path among distinct ones has the content of its file. -/
theorem Distinct.content?_of_mem {f : PatchedFile} (h : Distinct files) (hf : f ∈ files) :
    content? files f.path = some f.content := by
  induction files with
  | nil => cases hf
  | cons g files ih =>
    rcases List.mem_cons.1 hf with rfl | hf
    · exact content?_cons_self f files
    · have hne : g.path ≠ f.path := Ne.symm (h.fresh_head f hf)
      rw [content?_cons_ne hne, ih h.tail hf]

/-! ## One file -/

/-- A file with a new path comes last. -/
theorem upsert_of_fresh (h : Fresh files path) (content : Text) :
    upsert path content files = files ++ [⟨path, content⟩] := by
  induction files with
  | nil => rfl
  | cons f files ih =>
    have hf : f.path ≠ path := h f (List.mem_cons_self ..)
    rw [upsert, if_neg hf, ih fun g hg => h g (List.mem_cons_of_mem _ hg), List.cons_append]

@[simp]
theorem content?_upsert_self (path content : Text) (files : List PatchedFile) :
    content? (upsert path content files) path = some content := by
  induction files with
  | nil => exact content?_cons_self ⟨path, content⟩ []
  | cons f files ih =>
    rw [upsert]
    split
    · exact content?_cons_self ⟨path, content⟩ files
    · rename_i hf
      rw [content?_cons_ne hf, ih]

theorem content?_upsert_ne (h : other ≠ path) (content : Text) (files : List PatchedFile) :
    content? (upsert path content files) other = content? files other := by
  induction files with
  | nil => exact content?_cons_ne (Ne.symm h) []
  | cons f files ih =>
    rw [upsert]
    split
    · rename_i hf
      have hf' : f.path ≠ other := fun heq => h (heq.symm.trans hf)
      rw [content?_cons_ne hf']
      exact content?_cons_ne (Ne.symm h) files
    · by_cases hf : f.path = other
      · subst hf
        rw [content?_cons_self, content?_cons_self]
      · rw [content?_cons_ne hf, content?_cons_ne hf, ih]

/-- A file keeps its path, and at most the given path is new. -/
theorem mem_paths_upsert (content : Text) :
    other ∈ (upsert path content files).map PatchedFile.path ↔
      other = path ∨ other ∈ files.map PatchedFile.path := by
  induction files with
  | nil => simp [upsert]
  | cons f files ih =>
    rw [upsert]
    split
    · rename_i hf
      simp [hf]
    · simp only [List.map_cons, List.mem_cons, ih]
      exact or_left_comm

theorem Distinct.upsert (h : Distinct files) (path content : Text) :
    Distinct (upsert path content files) := by
  induction files with
  | nil => simp [Distinct, ApplyResult.upsert]
  | cons f files ih =>
    rw [ApplyResult.upsert]
    split
    · rename_i hf
      rw [Distinct, List.map_cons] at h ⊢
      rw [← hf]
      exact h
    · rename_i hf
      refine List.nodup_cons.2 ⟨fun hmem => ?_, ih h.tail⟩
      rcases (mem_paths_upsert content).1 hmem with heq | hmem
      · exact hf heq
      · exact (List.nodup_cons.1 h).1 hmem

/-- The last content of a path counts. -/
theorem upsert_upsert_self (path content content' : Text) (files : List PatchedFile) :
    upsert path content (upsert path content' files) = upsert path content files := by
  induction files with
  | nil => simp [upsert]
  | cons f files ih =>
    by_cases hf : f.path = path
    · simp [upsert, hf]
    · simp [upsert, hf, ih]

/-- Contents of different paths can be given in any order, when one of the paths is there. -/
theorem upsert_comm (h : path ≠ other) (hmem : path ∈ files.map PatchedFile.path)
    (content content' : Text) :
    upsert path content (upsert other content' files)
      = upsert other content' (upsert path content files) := by
  induction files with
  | nil => cases hmem
  | cons f files ih =>
    by_cases hf : f.path = path
    · have hne : f.path ≠ other := fun heq => h (hf.symm.trans heq)
      simp [upsert, hf, h]
    · have hrest : path ∈ files.map PatchedFile.path := by
        rcases List.mem_cons.1 hmem with heq | hrest
        · exact absurd heq.symm hf
        · exact hrest
      by_cases hother : f.path = other
      · simp [upsert, hother, Ne.symm h]
      · simp [upsert, hf, hother, ih hrest]

/-! ## Several files -/

/-- Files updated and extended by later ones, in their order. -/
def merge (older newer : List PatchedFile) : List PatchedFile :=
  newer.foldl (fun files f => upsert f.path f.content files) older

@[simp]
theorem merge_nil (older : List PatchedFile) : merge older [] = older := rfl

@[simp]
theorem merge_cons (older : List PatchedFile) (f : PatchedFile) (newer : List PatchedFile) :
    merge older (f :: newer) = merge (upsert f.path f.content older) newer := rfl

/-- A content of a path that is there can be given before the files of other paths. -/
theorem upsert_merge (hfresh : Fresh newer path) (hmem : path ∈ older.map PatchedFile.path)
    (content : Text) :
    upsert path content (merge older newer) = merge (upsert path content older) newer := by
  induction newer generalizing older with
  | nil => rfl
  | cons f newer ih =>
    have hf : path ≠ f.path := Ne.symm (hfresh f (List.mem_cons_self ..))
    rw [merge_cons, merge_cons, ih (fun g hg => hfresh g (List.mem_cons_of_mem _ hg))
      ((mem_paths_upsert f.content).2 (.inr hmem)), upsert_comm hf hmem]

/-- A content given after a merge is a content of the later files. -/
theorem merge_upsert (h : Distinct newer) (path content : Text) (older : List PatchedFile) :
    merge older (upsert path content newer) = upsert path content (merge older newer) := by
  induction newer generalizing older with
  | nil => rfl
  | cons f newer ih =>
    rw [upsert]
    split
    · rename_i hf
      subst hf
      have hmem : f.path ∈ (upsert f.path f.content older).map PatchedFile.path :=
        (mem_paths_upsert f.content).2 (.inl rfl)
      rw [merge_cons, merge_cons, upsert_merge h.fresh_head hmem, upsert_upsert_self]
    · rw [merge_cons, merge_cons, ih h.tail]

/-- The later files count, and the earlier ones for the other paths. -/
theorem content?_merge (h : Distinct newer) (older : List PatchedFile) (path : Text) :
    content? (merge older newer) path = (content? newer path).or (content? older path) := by
  induction newer generalizing older with
  | nil => rfl
  | cons f newer ih =>
    rw [merge_cons, ih h.tail]
    by_cases hf : f.path = path
    · subst hf
      rw [content?_of_fresh h.fresh_head, content?_upsert_self, content?_cons_self]
      rfl
    · rw [content?_upsert_ne (Ne.symm hf), content?_cons_ne hf]

end ApplyResult

end Mend
