import Mend.Proofs.Patch.Simulation

/-!
# Runs of the engine

What the engine does with one token of any kind (`Engine.read`), and what follows for a list of
them: the tokens of two lists are read one after the other (`Engine.run_append`), and a run that
fails has read all tokens before the one that stops it (`Engine.exists_stop`).

No token takes a warning back, and finishing a file gives none.
-/

namespace Mend

/-- Inserting at the end of the front. -/
theorem insertIdx_length_append {α : Type} (front back : List α) (a : α) :
    (front ++ back).insertIdx front.length a = front ++ a :: back := by
  induction front with
  | nil => simp
  | cons b front ih => simpa using ih

namespace Patch

/-- The tokens that are about the open file. -/
def isHunkLine : TokenKind → Bool
  | .remove _ | .add _ | .context _ | .noNewline => true
  | _ => false

/-- A line of a hunk opens no file. -/
theorem ne_newHeader_of_isHunkLine {kind : TokenKind} (hkind : isHunkLine kind = true)
    (path : Text) : kind ≠ .newHeader (some path) := by
  rintro rfl
  cases hkind

namespace Engine

variable {σ : Type}

/-! ## Tokens -/

/-- Lines of hunks outside of an open file are dropped. -/
theorem step_of_opened_eq_none {kind : TokenKind} (hkind : isHunkLine kind = true) {e : Engine}
    (h : e.opened = none) {rule : CursorRule} {strict : Bool} {n : Nat} :
    e.step rule strict ⟨n, kind⟩ = .ok e := by
  cases kind with
  | remove _ | add _ | context _ | noNewline => rw [step, h]
  | oldHeader _ | newHeader _ | hunk _ | other => cases hkind

/-- The engine after a token, and the loader's state. -/
def read (rule : CursorRule) (strict : Bool) (load : σ → Text → Loaded × σ) (token : Token)
    (e : Engine) (s : σ) : Except PatchError Engine × σ :=
  match token.kind with
  | .newHeader (some path) =>
    let (e, s) := e.openFile load path s
    (.ok e, s)
  | _ => (e.step rule strict token, s)

section Run

variable {rule : CursorRule} {strict : Bool} {load : σ → Text → Loaded × σ}

theorem read_of_ne {kind : TokenKind} (hkind : ∀ path, kind ≠ .newHeader (some path)) (line : Nat)
    (e : Engine) (s : σ) :
    e.read rule strict load ⟨line, kind⟩ s = (e.step rule strict ⟨line, kind⟩, s) := by
  cases kind with
  | newHeader path =>
    cases path with
    | none => rfl
    | some path => exact absurd rfl (hkind path)
  | _ => rfl

theorem read_other (n : Nat) (e : Engine) (s : σ) :
    e.read rule strict load ⟨n, .other⟩ s = (.ok e, s) := by
  rw [read_of_ne (by simp), step]

/-- A run reads its first token and goes on. -/
theorem run_cons_eq (token : Token) (tokens : List Token) (e : Engine) (s : σ) :
    run rule strict load (token :: tokens) e s
      = match e.read rule strict load token s with
        | (.error err, s) => (.error err, s)
        | (.ok e, s) => run rule strict load tokens e s := by
  obtain ⟨line, kind⟩ := token
  by_cases hkind : ∃ path, kind = .newHeader (some path)
  · obtain ⟨path, rfl⟩ := hkind
    rfl
  · have hother : ∀ path, kind ≠ .newHeader (some path) := fun path heq => hkind ⟨path, heq⟩
    rw [run_cons_of_ne hother, read_of_ne hother]
    cases e.step rule strict ⟨line, kind⟩ with
    | error err => rfl
    | ok e' => rfl

/-- The engine takes a step and goes on. -/
theorem run_cons (load : σ → Text → Loaded × σ) {e e' : Engine} {n : Nat} {kind : TokenKind}
    (hkind : ∀ p, kind ≠ .newHeader (some p)) (hstep : e.step rule strict ⟨n, kind⟩ = .ok e')
    (ts : List Token) (s : σ) :
    run rule strict load (⟨n, kind⟩ :: ts) e s = run rule strict load ts e' s := by
  rw [run_cons_of_ne hkind, hstep]

/-- Tokens that stand behind others are read by the engine that these leave. -/
theorem run_append (front back : List Token) (e : Engine) (s : σ) :
    run rule strict load (front ++ back) e s
      = match run rule strict load front e s with
        | (.error err, s) => (.error err, s)
        | (.ok e, s) => run rule strict load back e s := by
  induction front generalizing e s with
  | nil => rfl
  | cons token front ih =>
    rw [List.cons_append, run_cons_eq, run_cons_eq]
    rcases e.read rule strict load token s with ⟨err | e', s'⟩
    · rfl
    · exact ih e' s'

/-- What the loader keeps of its state is kept by a run. -/
theorem run_invariant {P : σ → Prop} (h : ∀ path s, P s → P (load s path).2) (tokens : List Token)
    (e : Engine) {s : σ} (hs : P s) : P (run rule strict load tokens e s).2 := by
  -- the state is related to itself while it has the property
  have hload : ∀ path {s t : σ}, s = t ∧ P t →
      Agrees (fun s t => s = t ∧ P t) (load s path) (load t path) := by
    rintro path s t ⟨rfl, hs⟩
    exact ⟨rfl, rfl, h path s hs⟩
  exact (run_agrees hload rule strict tokens e ⟨rfl, hs⟩).rel.2

/-- A run that fails is stopped by a token, after the tokens before it. -/
theorem exists_stop {tokens : List Token} {e : Engine} {s s' : σ} {err : PatchError}
    (h : run rule strict load tokens e s = (.error err, s')) :
    ∃ front token back e₁ s₁, tokens = front ++ token :: back ∧
      run rule strict load front e s = (.ok e₁, s₁) ∧
      e₁.read rule strict load token s₁ = (.error err, s') := by
  induction tokens generalizing e s with
  | nil => cases h
  | cons token tokens ih =>
    rw [run_cons_eq] at h
    rcases hread : e.read rule strict load token s with ⟨err' | e', s₁⟩
    · rw [hread] at h
      exact ⟨[], token, tokens, e, s, rfl, rfl, hread.trans h⟩
    · rw [hread] at h
      obtain ⟨front, stop, back, e₁, s₂, rfl, hfront, hstop⟩ := ih h
      refine ⟨token :: front, stop, back, e₁, s₂, rfl, ?_, hstop⟩
      rw [run_cons_eq, hread]
      exact hfront

/-- A token that stops a run asks the loader nothing. -/
theorem read_error_state {token : Token} {e : Engine} {s s' : σ} {err : PatchError}
    (h : e.read rule strict load token s = (.error err, s')) : s' = s := by
  obtain ⟨n, kind⟩ := token
  by_cases hkind : ∃ path, kind = .newHeader (some path)
  · obtain ⟨path, rfl⟩ := hkind
    cases h
  · rw [read_of_ne fun path heq => hkind ⟨path, heq⟩] at h
    exact (Prod.mk.inj h).2.symm

end Run

/-! ## Finishing a file -/

@[simp]
theorem flush_opened (e : Engine) : e.flush.opened = none := by
  unfold flush
  split
  · assumption
  · split <;> rfl

/-- Nothing is left to finish when no file is open. -/
theorem flush_of_opened_eq_none {e : Engine} (h : e.opened = none) : e.flush = e := by
  simp [flush, h]

/-- Finishing a file gives no warning. -/
@[simp]
theorem flush_warnings (e : Engine) : e.flush.warnings = e.warnings := by
  unfold flush
  split
  · rfl
  · split <;> rfl

end Engine

/-! ## Patches -/

variable {σ : Type} {strict : Bool} {load : σ → Text → Loaded × σ} {patch : Text}

/-- A patch is applied by reading its tokens. -/
theorem apply_of_tokenize {tokens : List Token} (h : tokenize patch = .ok tokens) (s : σ) :
    apply strict load patch s
      = match Engine.run .word strict load tokens {} s with
        | (.error err, s) => (.error err, s)
        | (.ok e, s) => (.ok e.result, s) := by
  unfold apply applyWith
  generalize tokenize patch = read at h ⊢
  subst h
  rfl

/-- A patch that cannot be read is rejected before any file is loaded. -/
theorem apply_of_tokenize_error {err : PatchError} (h : tokenize patch = .error err) (s : σ) :
    apply strict load patch s = (.error err, s) := by
  rw [apply, applyWith, h]

/-- A patch that is accepted has tokens. -/
theorem exists_tokens_of_apply {s s' : σ} {r : ApplyResult}
    (h : apply strict load patch s = (.ok r, s')) : ∃ tokens, tokenize patch = .ok tokens := by
  cases htokens : tokenize patch with
  | error err =>
    rw [apply_of_tokenize_error htokens] at h
    cases h
  | ok tokens => exact ⟨tokens, rfl⟩

/-- A patch that is accepted has the result of the run over its tokens. -/
theorem exists_run_of_apply {tokens : List Token} (htokens : tokenize patch = .ok tokens) {s s' : σ}
    {r : ApplyResult} (h : apply strict load patch s = (.ok r, s')) :
    ∃ e, Engine.run .word strict load tokens {} s = (.ok e, s') ∧ e.result = r := by
  rw [apply_of_tokenize htokens] at h
  split at h
  · cases h
  · rename_i e state hrun
    cases h
    exact ⟨e, hrun, rfl⟩

/-- A patch that is rejected cannot be read, or is stopped by a token. -/
theorem cases_of_apply_error {s s' : σ} {err : PatchError}
    (h : apply strict load patch s = (.error err, s')) : tokenize patch = .error err ∧ s' = s ∨
      ∃ front token back e, tokenize patch = .ok (front ++ token :: back) ∧
        Engine.run .word strict load front {} s = (.ok e, s') ∧
        e.read .word strict load token s' = (.error err, s') := by
  cases htokens : tokenize patch with
  | error err' =>
    rw [apply_of_tokenize_error htokens] at h
    cases h
    exact .inl ⟨rfl, rfl⟩
  | ok tokens =>
    rw [apply_of_tokenize htokens] at h
    split at h
    · rename_i hrun
      cases h
      obtain ⟨front, token, back, e, s₁, rfl, hfront, hstop⟩ := Engine.exists_stop hrun
      obtain rfl := Engine.read_error_state hstop
      exact .inr ⟨front, token, back, e, rfl, hfront, hstop⟩
    · cases h

/-- Patches with the same lines do the same. -/
theorem apply_congr_patchLines {patch' : Text} (h : patchLines patch = patchLines patch') (s : σ) :
    apply strict load patch s = apply strict load patch' s := by
  have htokens : tokenize patch = tokenize patch' := by rw [tokenize, tokenize, h]
  rw [apply, apply, applyWith, applyWith, htokens]

/-- What the loader keeps of its state is kept by a patch, also by one that is rejected. -/
theorem apply_invariant {P : σ → Prop} (h : ∀ path s, P s → P (load s path).2) {s : σ} (hs : P s) :
    P (apply strict load patch s).2 := by
  cases htokens : tokenize patch with
  | error err =>
    rw [apply_of_tokenize_error htokens]
    exact hs
  | ok tokens =>
    have hrun : P (Engine.run .word strict load tokens {} s).2 :=
      Engine.run_invariant h tokens {} hs
    rw [apply_of_tokenize htokens]
    generalize Engine.run .word strict load tokens {} s = p at hrun ⊢
    obtain ⟨result, s'⟩ := p
    cases result with
    | error err => exact hrun
    | ok e => exact hrun

end Patch

end Mend
