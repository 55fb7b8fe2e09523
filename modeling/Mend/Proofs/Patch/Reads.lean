import Mathlib.Data.List.Induction
import Mend.Proofs.Patch.Conservation
import Mend.Proofs.Patch.Files

/-!
# What a token does

All that a token does when the engine goes on behind it, in both modes (`Patch.Engine.Reads`): a
header finishes the open file and opens another one or none, and the other tokens are about the open
file alone, if there is one. When the engine does not go on, the open file lacks the line that the
token expects (`Patch.Engine.exists_of_read_error`).

A property of the tokens read so far, of the engine and of the loader's state holds after a run when
each token keeps it (`Patch.Engine.run_induction`).
-/

namespace Mend

namespace Patch

namespace Engine

variable {σ : Type} {rule : CursorRule} {strict : Bool} {load : σ → Text → Loaded × σ}
  {e e' : Engine} {s s' : σ} {n : Nat} {kind : TokenKind} {token : Token}

/-! ## Tokens other than file headers -/

/-- Whether the last line of the open file has its line feed. -/
def ended? (e : Engine) : Option Bool := e.opened.map fun f => f.buffer.ended

/-- What a token that is no file header does: it is about the open file, if there is one. -/
structure Passes (e : Engine) (n : Nat) (kind : TokenKind) (e' : Engine) : Prop where
  files : e'.files = e.files
  /-- Only the mark of a missing line feed is about the end of the file. -/
  ended : kind ≠ .noNewline → e'.ended? = e.ended?
  closed : e.opened = none → e'.opened = none ∧ e'.warnings = e.warnings
  effect : ∀ f, e.opened = some f → Effect e f n kind e'

/-- A line of a hunk keeps the open file open, with other lines or the same. -/
theorem Effect.exists_opened {f : OpenFile} (h : Effect e f n kind e') :
    ∃ buffer, e'.opened = some { f with buffer } := by
  cases h with
  | deleted found lines_eq opened warnings => exact ⟨_, opened⟩
  | skipped found opened warnings => exact ⟨f.buffer, opened⟩
  | added place_le lines_eq opened warnings => exact ⟨_, opened⟩
  | passed not_removal not_added opened warnings => exact ⟨_, opened⟩

/-- Only a file header finishes a file. -/
theorem files_step (hkind : isFileHeader kind = false)
    (hstep : e.step rule strict ⟨n, kind⟩ = .ok e') :
    e'.files = e.files ∧ (kind ≠ .noNewline → e'.ended? = e.ended?) := by
  rw [step] at hstep
  split at hstep
  · rename_i hheader
    obtain rfl : kind = _ := hheader
    cases hkind
  · rename_i hheader
    obtain rfl : kind = _ := hheader
    cases hkind
  · cases hstep
    exact ⟨rfl, fun _ => rfl⟩
  · rename_i f _ hopened
    rw [removeLine] at hstep
    split at hstep
    · cases hstep
      exact ⟨rfl, fun _ => by rw [ended?, ended?, hopened]; rfl⟩
    split at hstep
    · cases hstep
    · cases hstep
      exact ⟨rfl, fun _ => rfl⟩
  · rename_i f _ hopened
    cases hstep
    exact ⟨rfl, fun _ => by rw [ended?, ended?, hopened]; rfl⟩
  · rw [keepLine] at hstep
    split at hstep
    · cases hstep
    · cases hstep
      exact ⟨rfl, fun _ => rfl⟩
  · rename_i hmark _
    cases hstep
    exact ⟨rfl, fun hne => absurd hmark hne⟩
  · cases hstep
    exact ⟨rfl, fun _ => rfl⟩

/-- Outside of an open file nothing is opened and nothing is warned of. -/
theorem closed_step (hkind : isFileHeader kind = false) (hopened : e.opened = none)
    (hstep : e.step rule strict ⟨n, kind⟩ = .ok e') :
    e'.opened = none ∧ e'.warnings = e.warnings := by
  by_cases hline : isHunkLine kind = true
  · rw [step_of_opened_eq_none hline hopened] at hstep
    cases hstep
    exact ⟨hopened, rfl⟩
  · cases kind with
    | oldHeader _ | newHeader _ => cases hkind
    | hunk header =>
      rw [step] at hstep
      cases hstep
      exact ⟨hopened, rfl⟩
    | other =>
      rw [step] at hstep
      cases hstep
      exact ⟨hopened, rfl⟩
    | remove _ | add _ | context _ | noNewline => exact absurd rfl hline

theorem passes_of_step (hkind : isFileHeader kind = false)
    (hstep : e.step rule false ⟨n, kind⟩ = .ok e') : Passes e n kind e' where
  files := (files_step hkind hstep).1
  ended := (files_step hkind hstep).2
  closed hopened := closed_step hkind hopened hstep
  effect f hopened := by
    obtain ⟨e₁, hstep₁, heffect⟩ := exists_effect rule hopened n hkind
    cases hstep.symm.trans hstep₁
    exact heffect

/-! ## File headers -/

/-- When the open file is finished, its path gets the content of its buffer, unless the file was not
found and got no lines. No other path is touched. -/
theorem content?_flush_cases (e : Engine) (path : Text) :
    (∃ f, e.opened = some f ∧ f.path = path ∧
      ApplyResult.content? e.flush.files path = some f.buffer.content) ∨
    ((∀ f, e.opened = some f → f.path = path → f.present = false ∧ f.buffer.lines = []) ∧
      ApplyResult.content? e.flush.files path = ApplyResult.content? e.files path) := by
  cases hopened : e.opened with
  | none =>
    rw [flush_of_opened_eq_none hopened]
    exact .inr ⟨fun f hf => (Option.some_ne_none f hf.symm).elim, rfl⟩
  | some f =>
    rw [flush, hopened]
    dsimp only
    split
    · rename_i hdropped
      rw [Bool.and_eq_true, Bool.not_eq_true', List.isEmpty_iff] at hdropped
      refine .inr ⟨fun g hg _ => ?_, rfl⟩
      cases hg
      exact hdropped
    by_cases hpath : f.path = path
    · exact .inl ⟨f, rfl, hpath, hpath ▸ ApplyResult.content?_upsert_self ..⟩
    · refine .inr ⟨fun g hg hother => ?_, ApplyResult.content?_upsert_ne (Ne.symm hpath) ..⟩
      cases hg
      exact absurd hother hpath

theorem skipDeletion_files (e : Engine) : e.skipDeletion.files = e.flush.files := by
  rw [skipDeletion]
  split <;> rfl

theorem skipDeletion_opened (e : Engine) : e.skipDeletion.opened = none := by
  rw [skipDeletion]
  split
  · exact e.flush_opened
  · exact e.flush_opened

theorem openLoaded_files (e : Engine) (path : Text) (creating : Bool) (known : Loaded) :
    (e.openLoaded path creating known).files = e.files := by
  cases known with
  | content t => rfl
  | notFound => cases creating <;> rfl
  | unreadable reason => rfl

theorem openFile_files {σ : Type} (load : σ → Text → Loaded × σ) (e : Engine) (path : Text)
    (s : σ) : (e.openFile load path s).1.files = e.flush.files := by
  rw [openFile]
  dsimp only
  split <;> rw [openLoaded_files]

/-! ## All tokens -/

/-- What a token does to the engine and to the loader's state. -/
inductive Reads (load : σ → Text → Loaded × σ) (e : Engine) (s : σ) :
    Token → Engine → σ → Prop
  | oldHeader (n : Nat) (path : Option Text) : Reads load e s ⟨n, .oldHeader path⟩ (e.oldHeader path) s
  | deletion (n : Nat) : Reads load e s ⟨n, .newHeader none⟩ e.skipDeletion s
  | target {e' : Engine} {s' : σ} (n : Nat) (path : Text) (opens : e.openFile load path s = (e', s')) :
      Reads load e s ⟨n, .newHeader (some path)⟩ e' s'
  | line {e' : Engine} {n : Nat} {kind : TokenKind} (not_header : isFileHeader kind = false)
      (passes : Passes e n kind e') : Reads load e s ⟨n, kind⟩ e' s

/-- Where the engine goes on it does the same in both modes. -/
theorem read_tolerant_of_ok (hread : e.read rule strict load token s = (.ok e', s')) :
    e.read rule false load token s = (.ok e', s') := by
  cases strict with
  | false => exact hread
  | true =>
    cases read_modes rule load token e s with
    | same ws strict tolerant warnings quiet =>
      rw [strict] at hread
      rw [tolerant, hread]
    | removal _ path expected found strict tolerant warnings =>
      rw [strict] at hread
      cases hread
    | context _ path expected found strict tolerant warnings =>
      rw [strict] at hread
      cases hread

theorem reads_of_read (hread : e.read rule strict load token s = (.ok e', s')) :
    Reads load e s token e' s' := by
  replace hread := read_tolerant_of_ok hread
  obtain ⟨n, kind⟩ := token
  by_cases hkind : isFileHeader kind = false
  · rw [read_of_ne (by rintro path rfl; cases hkind)] at hread
    obtain ⟨hstep, rfl⟩ := Prod.mk.inj hread
    exact .line hkind (passes_of_step hkind hstep)
  · cases kind with
    | oldHeader path =>
      cases hread
      exact .oldHeader n path
    | newHeader path =>
      cases path with
      | none =>
        cases hread
        exact .deletion n
      | some path =>
        cases hread
        exact .target n path rfl
    | _ => exact absurd rfl hkind

/-- File headers finish the open file, and nothing else does. -/
theorem Reads.files_eq (hreads : Reads load e s token e' s') :
    e'.files = if isFileHeader token.kind then e.flush.files else e.files := by
  cases hreads with
  | oldHeader n path => rfl
  | deletion n => exact e.skipDeletion_files
  | target n path opens =>
    have hfiles := openFile_files load e path s
    rwa [opens] at hfiles
  | line not_header passes =>
    rw [if_neg (by simp [not_header])]
    exact passes.files

/-- No token takes a warning back. -/
theorem Reads.warnings_prefix (hreads : Reads load e s token e' s') : e.warnings <+: e'.warnings := by
  have hsame : e'.warnings = e.warnings → e.warnings <+: e'.warnings :=
    fun heq => heq ▸ List.prefix_refl _
  cases hreads with
  | oldHeader n path => exact hsame e.flush_warnings
  | deletion n =>
    obtain ⟨ws, hwarnings, -⟩ := skipDeletion_warnings e
    exact ⟨ws, hwarnings.symm⟩
  | target n path opens =>
    obtain ⟨ws, hwarnings, -⟩ := openFile_warnings load e path s
    rw [opens] at hwarnings
    exact ⟨ws, hwarnings.symm⟩
  | line not_header passes =>
    cases hopened : e.opened with
    | none => exact hsame (passes.closed hopened).2
    | some f =>
      cases passes.effect f hopened with
      | deleted found lines_eq opened warnings => exact hsame warnings
      | skipped found opened warnings => exact ⟨_, warnings.symm⟩
      | added place_le lines_eq opened warnings => exact hsame warnings
      | passed not_removal not_added opened warnings => exact hsame warnings

/-- A token that stops the engine expects a line that the open file does not have at the cursor. -/
theorem exists_of_read_error {err : PatchError}
    (hread : e.read rule strict load token s = (.error err, s')) :
    ∃ f expected, e.opened = some f ∧
      (token.kind = .remove expected ∧
          err = .removalMismatch token.line f.path expected f.buffer.lines[e.cursor]? ∨
        token.kind = .context expected ∧
          err = .contextMismatch token.line f.path expected f.buffer.lines[e.cursor]?) := by
  obtain ⟨n, kind⟩ := token
  cases kind with
  | newHeader path =>
    cases path with
    | none => cases hread
    | some path => cases hread
  | oldHeader _ | hunk _ => cases hread
  | other =>
    rw [read_other] at hread
    cases hread
  -- the lines of hunks are dropped when no file is open
  | remove expected =>
    rw [read_of_ne (by simp)] at hread
    cases hopened : e.opened with
    | none =>
      rw [step_of_opened_eq_none rfl hopened] at hread
      cases hread
    | some f =>
      refine ⟨f, expected, rfl, .inl ⟨rfl, ?_⟩⟩
      rw [step, hopened] at hread
      dsimp only [removeLine] at hread
      split at hread
      · cases hread
      split at hread
      · cases hread
        rfl
      · cases hread
  | context expected =>
    rw [read_of_ne (by simp)] at hread
    cases hopened : e.opened with
    | none =>
      rw [step_of_opened_eq_none rfl hopened] at hread
      cases hread
    | some f =>
      refine ⟨f, expected, rfl, .inr ⟨rfl, ?_⟩⟩
      rw [step, hopened] at hread
      dsimp only [keepLine] at hread
      split at hread
      · cases hread
        rfl
      · cases hread
  | add _ | noNewline =>
    rw [read_of_ne (by simp)] at hread
    cases hopened : e.opened with
    | none =>
      rw [step_of_opened_eq_none rfl hopened] at hread
      cases hread
    | some f =>
      rw [step, hopened] at hread
      cases hread

/-! ## Runs -/

/-- The tokens before others are read first. -/
theorem exists_run_of_append {front back : List Token}
    (hrun : run rule strict load (front ++ back) e s = (.ok e', s')) :
    ∃ e₁ s₁, run rule strict load front e s = (.ok e₁, s₁) ∧
      run rule strict load back e₁ s₁ = (.ok e', s') := by
  rw [run_append] at hrun
  rcases hfront : run rule strict load front e s with ⟨err | e₁, s₁⟩
  · rw [hfront] at hrun
    cases hrun
  · rw [hfront] at hrun
    exact ⟨e₁, s₁, rfl, hrun⟩

/-- A run of one token. -/
theorem read_of_run (hrun : run rule strict load [token] e s = (.ok e', s')) :
    e.read rule strict load token s = (.ok e', s') := by
  rw [run_cons_eq] at hrun
  rcases hread : e.read rule strict load token s with ⟨err | e₁, s₁⟩
  · rw [hread] at hrun
    cases hrun
  · rw [hread] at hrun
    exact hrun

/-- What holds of no tokens and is kept by each token of a list holds after a run over the list. -/
theorem run_induction {tokens : List Token} {P : List Token → Engine → σ → Prop} (start : P [] e s)
    (next : ∀ front token back e₁ s₁ e₂ s₂, tokens = front ++ token :: back →
      run rule strict load front e s = (.ok e₁, s₁) → P front e₁ s₁ →
      Reads load e₁ s₁ token e₂ s₂ → P (front ++ [token]) e₂ s₂)
    (hrun : run rule strict load tokens e s = (.ok e', s')) : P tokens e' s' := by
  -- induction on the tokens read so far
  have hfront : ∀ front back, tokens = front ++ back → ∀ e₁ s₁,
      run rule strict load front e s = (.ok e₁, s₁) → P front e₁ s₁ := by
    intro front
    induction front using List.reverseRecOn with
    | nil =>
      intro back _ e₁ s₁ hrun
      cases hrun
      exact start
    | append_singleton front token ih =>
      intro back htokens e₂ s₂ hrun
      rw [List.append_assoc, List.singleton_append] at htokens
      obtain ⟨e₁, s₁, hfront, hlast⟩ := exists_run_of_append hrun
      exact next front token back e₁ s₁ e₂ s₂ htokens hfront (ih _ htokens e₁ s₁ hfront)
        (reads_of_read (read_of_run hlast))
  exact hfront tokens [] (List.append_nil _).symm e' s' hrun

end Engine

end Patch

end Mend
