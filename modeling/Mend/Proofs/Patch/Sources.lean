import Mend.Proofs.Patch.Files
import Mend.Proofs.Patch.Reads

/-!
# Sources of produced files

A patch produces a file only for a path that the loader was asked for, and of which it did not say
that it cannot be read (`Patch.apply_sources`): the hunks of such a file are skipped, so nothing is
made of it, also when another block of the patch names it again. It produces one file for a path
(`Patch.apply_distinct`).
-/

namespace Mend

namespace Patch

namespace Engine

/-- What holds of the paths of the finished files and of the open one. -/
structure OnPaths (Q : Text → Prop) (e : Engine) : Prop where
  files : ∀ path ∈ e.files.map PatchedFile.path, Q path
  opened : ∀ path ∈ e.opened.map OpenFile.path, Q path

namespace OnPaths

variable {Q Q' : Text → Prop} {e e' : Engine}

theorem mono (h : e.OnPaths Q) (hQ : ∀ path, Q path → Q' path) : e.OnPaths Q' :=
  ⟨fun path hpath => hQ path (h.files path hpath), fun path hpath => hQ path (h.opened path hpath)⟩

theorem congr (h : e.OnPaths Q) (hfiles : e'.files = e.files)
    (hopened : e'.opened.map OpenFile.path = e.opened.map OpenFile.path) : e'.OnPaths Q :=
  ⟨hfiles ▸ h.files, hopened ▸ h.opened⟩

theorem flush (h : e.OnPaths Q) : e.flush.OnPaths Q := by
  refine ⟨fun path hpath => ?_, fun path hpath => ?_⟩
  · rw [Engine.flush] at hpath
    split at hpath
    · exact h.files path hpath
    · rename_i f hopened
      split at hpath
      · exact h.files path hpath
      · rcases (ApplyResult.mem_paths_upsert f.buffer.content).1 hpath with rfl | hpath
        · exact h.opened _ (by rw [hopened, Option.map_some, Option.mem_some_iff])
        · exact h.files path hpath
  · rw [e.flush_opened, Option.map_none] at hpath
    cases hpath

theorem skipDeletion (h : e.OnPaths Q) : e.skipDeletion.OnPaths Q := by
  rw [Engine.skipDeletion]
  split
  · exact h.flush.congr rfl rfl
  · exact h.flush

/-- Only a file header changes the paths. -/
theorem passes {n : Nat} {kind : TokenKind} (h : e.OnPaths Q) (hpasses : Passes e n kind e') :
    e'.OnPaths Q := by
  refine h.congr hpasses.files ?_
  cases hopened : e.opened with
  | none => rw [(hpasses.closed hopened).1]
  | some f =>
    obtain ⟨buffer, hopened'⟩ := (hpasses.effect f hopened).exists_opened
    rw [hopened']
    rfl

end OnPaths

section Loading

variable {σ : Type} {load : σ → Text → Loaded × σ} {rule : CursorRule} {strict : Bool}

/-- What the loader keeps of its state, and what is known of a path that it was asked for and can be
read. -/
structure Knows (load : σ → Text → Loaded × σ) (P : σ → Prop) (Q : σ → Text → Prop) : Prop where
  kept : ∀ path s, P s → P (load s path).2
  known : ∀ path s other, P s → Q s other → Q (load s path).2 other
  readable : ∀ path s, P s → (∀ reason, (load s path).1 ≠ .unreadable reason) →
    Q (load s path).2 path

variable {P : σ → Prop} {Q : σ → Text → Prop} {e e' : Engine} {s s' : σ}

/-- A path that has a content is one of the paths. -/
theorem mem_paths_of_content? {files : List PatchedFile} {path content : Text}
    (h : ApplyResult.content? files path = some content) : path ∈ files.map PatchedFile.path := by
  by_cases hmem : path ∈ files.map PatchedFile.path
  · exact hmem
  · have hfresh : ApplyResult.Fresh files path :=
      fun f hf heq => hmem (List.mem_map.2 ⟨f, hf, heq⟩)
    rw [ApplyResult.content?_of_fresh hfresh] at h
    cases h

theorem OnPaths.openLoaded {R : Text → Prop} (h : e.OnPaths R) {path : Text} {known : Loaded}
    (hpath : (∀ reason, known ≠ .unreadable reason) → R path) (creating : Bool) :
    (e.openLoaded path creating known).OnPaths R := by
  -- the new file is the one that is open, if there is one
  have hnew : ∀ {e' : Engine} {f : OpenFile}, e'.files = e.files → e'.opened = some f →
      f.path = path → R path → e'.OnPaths R := by
    intro e' f hfiles hopened' hf hR
    refine ⟨hfiles ▸ h.files, fun other hother => ?_⟩
    rw [hopened', Option.map_some, Option.mem_some_iff] at hother
    rw [← hother, hf]
    exact hR
  cases known with
  | content t => exact hnew rfl rfl rfl (hpath (by simp))
  | notFound =>
    rw [Engine.openLoaded]
    split
    · exact hnew rfl rfl rfl (hpath (by simp))
    · exact hnew rfl rfl rfl (hpath (by simp))
  | unreadable reason => exact h.congr rfl rfl

theorem OnPaths.openFile (hload : Knows load P Q) (h : e.OnPaths (Q s)) (hs : P s) (path : Text) :
    (e.openFile load path s).1.OnPaths (Q (e.openFile load path s).2) ∧
      P (e.openFile load path s).2 := by
  let ready : Engine := { e.flush with creating := false, cursor := 0 }
  have hready : ready.OnPaths (Q s) := h.flush.congr rfl rfl
  rw [Engine.openFile]
  dsimp only
  -- the file is one of the patch already, or the loader is asked for it
  split
  · rename_i t hcontent
    have hopened : (ready.openLoaded path e.flush.creating (.content t)).OnPaths (Q s) :=
      hready.openLoaded (fun _ => hready.files path (mem_paths_of_content? hcontent)) _
    exact ⟨hopened, hs⟩
  · refine ⟨?_, hload.kept path s hs⟩
    have hlater : ready.OnPaths (Q (load s path).2) :=
      hready.mono fun other => hload.known path s other hs
    exact hlater.openLoaded (hload.readable path s hs) _

theorem OnPaths.reads (hload : Knows load P Q) (h : e.OnPaths (Q s)) (hs : P s) {token : Token}
    (hreads : Reads load e s token e' s') : e'.OnPaths (Q s') ∧ P s' := by
  cases hreads with
  | oldHeader n path => exact ⟨h.flush.congr rfl rfl, hs⟩
  | deletion n => exact ⟨h.skipDeletion, hs⟩
  | target n path opens =>
    have hopen := h.openFile hload hs path
    rwa [opens] at hopen
  | line not_header passes => exact ⟨h.passes passes, hs⟩

theorem OnPaths.run (hload : Knows load P Q) {tokens : List Token} (h : e.OnPaths (Q s)) (hs : P s)
    (hrun : run rule strict load tokens e s = (.ok e', s')) : e'.OnPaths (Q s') ∧ P s' := by
  refine run_induction (P := fun _ e s => e.OnPaths (Q s) ∧ P s) ⟨h, hs⟩ ?_ hrun
  intro front token back e₁ s₁ e₂ s₂ _ _ h hreads
  exact h.1.reads hload h.2 hreads

end Loading

end Engine

/-- What is known of the paths that the loader was asked for and that can be read is known of the
files that a patch produces. -/
theorem apply_sources {σ : Type} {load : σ → Text → Loaded × σ} {P : σ → Prop}
    {Q : σ → Text → Prop} (hload : Engine.Knows load P Q) {strict : Bool} {patch : Text} {s s' : σ}
    {result : ApplyResult} (hs : P s) (h : apply strict load patch s = (.ok result, s')) :
    P s' ∧ ∀ f ∈ result.files, Q s' f.path := by
  obtain ⟨tokens, htokens⟩ := exists_tokens_of_apply h
  obtain ⟨e, hrun, rfl⟩ := exists_run_of_apply htokens h
  have hstart : Engine.OnPaths (Q s) {} := ⟨nofun, nofun⟩
  obtain ⟨hpaths, hkept⟩ := hstart.run hload hs hrun
  exact ⟨hkept, fun f hf => hpaths.flush.files f.path (List.mem_map_of_mem hf)⟩

/-! ## Distinct files -/

namespace Engine

theorem flush_distinct {e : Engine} (h : ApplyResult.Distinct e.files) :
    ApplyResult.Distinct e.flush.files := by
  rw [flush]
  split
  · exact h
  · split
    · exact h
    · exact h.upsert _ _

theorem run_distinct {σ : Type} {load : σ → Text → Loaded × σ} {rule : CursorRule} {strict : Bool}
    {tokens : List Token} {e e' : Engine} {s s' : σ} (h : ApplyResult.Distinct e.files)
    (hrun : run rule strict load tokens e s = (.ok e', s')) : ApplyResult.Distinct e'.files := by
  refine run_induction (P := fun _ e _ => ApplyResult.Distinct e.files) h ?_ hrun
  intro front token back e₁ s₁ e₂ s₂ _ _ h hreads
  rw [hreads.files_eq]
  split
  · exact flush_distinct h
  · exact h

end Engine

/-- A patch produces one file for a path. -/
theorem apply_distinct {σ : Type} {load : σ → Text → Loaded × σ} {strict : Bool} {patch : Text}
    {s s' : σ} {result : ApplyResult} (h : apply strict load patch s = (.ok result, s')) :
    ApplyResult.Distinct result.files := by
  obtain ⟨tokens, htokens⟩ := exists_tokens_of_apply h
  obtain ⟨e, hrun, rfl⟩ := exists_run_of_apply htokens h
  have hstart : ApplyResult.Distinct ({} : Engine).files := List.nodup_nil
  exact Engine.flush_distinct (Engine.run_distinct hstart hrun)

end Patch

end Mend
