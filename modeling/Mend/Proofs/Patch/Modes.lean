import Mend.Proofs.Patch.Run

/-!
# Strict and tolerant application

The strict mode refines the tolerant one (`Patch.apply_strictRefines`). Both do the same up to the
first line that differs from the file; there the strict mode rejects the patch and the tolerant one
goes on, after a removed line with a warning that says what the strict mode would have said.

What one token does in the two modes is stated once (`Patch.Engine.Modes`), and the statements on
runs follow from it.
-/

namespace Mend

/-- Whether a warning is about a removed line that differs. -/
def PatchWarning.isMismatch : PatchWarning → Bool
  | removalMismatch .. => true
  | _ => false

namespace Patch

/-! ## Lines of tokens -/

/-- The tokens have the numbers of the lines that they are read from. -/
theorem map_line_of_tokenizeFrom {ls : List Text} {st : LineState} {n : Nat} {ts : List Token}
    (h : tokenizeFrom st n ls = .ok ts) : ts.map Token.line = List.range' n ls.length := by
  induction ls generalizing st n ts with
  | nil =>
    cases h
    rfl
  | cons l ls ih =>
    rw [tokenizeFrom] at h
    split at h
    · cases h
    · split at h
      · cases h
      · rename_i rest hrest
        cases h
        rw [List.map_cons, ih hrest, List.length_cons, List.range'_succ]

/-- The numbers of the tokens of a patch go up. -/
theorem pairwise_line_of_tokenize {patch : Text} {ts : List Token} (h : tokenize patch = .ok ts) :
    ts.Pairwise fun t u => t.line < u.line := by
  have hlines : (ts.map Token.line).Pairwise (· < ·) := by
    rw [map_line_of_tokenizeFrom h]
    exact List.pairwise_lt_range' 1
  exact List.pairwise_map.1 hlines

/-- A patch that cannot be read has a hunk header that is none. -/
theorem eq_unparseableHeader_of_tokenizeFrom {ls : List Text} {st : LineState} {n : Nat}
    {err : PatchError} (h : tokenizeFrom st n ls = .error err) :
    ∃ m text, err = .unparseableHeader m text := by
  induction ls generalizing st n with
  | nil => cases h
  | cons l ls ih =>
    rw [tokenizeFrom] at h
    split at h
    · rename_i e hclassify
      cases h
      rw [classify] at hclassify
      repeat' split at hclassify
      all_goals cases hclassify
      exact ⟨_, _, rfl⟩
    · split at h
      · rename_i e hrest
        cases h
        exact ih hrest
      · cases h

namespace Engine

variable {σ : Type} {rule : CursorRule} {load : σ → Text → Loaded × σ}

/-! ## One token -/

/-- What a token does in the two modes. -/
inductive Modes (rule : CursorRule) (load : σ → Text → Loaded × σ) (token : Token) (e : Engine)
    (s : σ) : Prop
  /-- The modes agree, and no removed line differs. -/
  | same {e' : Engine} {s' : σ} (ws : List PatchWarning)
      (strict : e.read rule true load token s = (.ok e', s'))
      (tolerant : e.read rule false load token s = (.ok e', s'))
      (warnings : e'.warnings = e.warnings ++ ws) (quiet : ∀ w ∈ ws, w.isMismatch = false)
  /-- A removed line differs. -/
  | removal (e' : Engine) (path expected : Text) (found : Option Text)
      (strict : e.read rule true load token s
        = (.error (.removalMismatch token.line path expected found), s))
      (tolerant : e.read rule false load token s = (.ok e', s))
      (warnings : e'.warnings = e.warnings ++ [.removalMismatch path token.line expected found])
  /-- A context line differs, which the tolerant mode does not see. -/
  | context (e' : Engine) (path expected : Text) (found : Option Text)
      (strict : e.read rule true load token s
        = (.error (.contextMismatch token.line path expected found), s))
      (tolerant : e.read rule false load token s = (.ok e', s))
      (warnings : e'.warnings = e.warnings)

/-- A token that does the same in both modes and gives no warning. -/
theorem Modes.of_silent {token : Token} {e : Engine} {s : σ} (e' : Engine)
    (h : ∀ strict, e.read rule strict load token s = (.ok e', s))
    (hwarnings : e'.warnings = e.warnings) : Modes rule load token e s :=
  .same [] (h true) (h false) (by rw [hwarnings, List.append_nil]) fun w hw => by cases hw

/-- Opening a file warns of the file, never of a line. -/
theorem openLoaded_warnings (e : Engine) (path : Text) (creating : Bool) (known : Loaded) :
    ∃ ws, (e.openLoaded path creating known).warnings = e.warnings ++ ws ∧
      ∀ w ∈ ws, w.isMismatch = false := by
  cases known with
  | content t => exact ⟨[], (List.append_nil _).symm, by simp⟩
  | notFound =>
    cases creating with
    | true => exact ⟨[], (List.append_nil _).symm, by simp⟩
    | false => exact ⟨[.fileNotFound path], rfl, by simp [PatchWarning.isMismatch]⟩
  | unreadable reason => exact ⟨[.targetUnreadable path reason], rfl, by simp [PatchWarning.isMismatch]⟩

theorem openFile_warnings (load : σ → Text → Loaded × σ) (e : Engine) (path : Text) (s : σ) :
    ∃ ws, (e.openFile load path s).1.warnings = e.warnings ++ ws ∧
      ∀ w ∈ ws, w.isMismatch = false := by
  rw [← flush_warnings e, openFile]
  dsimp only
  split
  · exact openLoaded_warnings _ path _ _
  · exact openLoaded_warnings _ path _ _

theorem skipDeletion_warnings (e : Engine) :
    ∃ ws, e.skipDeletion.warnings = e.warnings ++ ws ∧ ∀ w ∈ ws, w.isMismatch = false := by
  rw [← flush_warnings e, skipDeletion]
  split
  · rename_i path hold
    exact ⟨[.deletionSkipped path], rfl, by simp [PatchWarning.isMismatch]⟩
  · exact ⟨[], (List.append_nil _).symm, by simp⟩

/-- Lines outside of an open file are dropped in both modes. -/
theorem Modes.of_dropped (n : Nat) {kind : TokenKind} (hkind : isHunkLine kind = true) {e : Engine}
    (hopened : e.opened = none) (s : σ) : Modes rule load ⟨n, kind⟩ e s := by
  refine .of_silent e (fun strict => ?_) rfl
  rw [read_of_ne (ne_newHeader_of_isHunkLine hkind), step_of_opened_eq_none hkind hopened]

theorem modes_remove (line : Nat) (expected : Text) {e : Engine} {f : OpenFile}
    (hopened : e.opened = some f) (s : σ) : Modes rule load ⟨line, .remove expected⟩ e s := by
  have hread : ∀ strict, e.read rule strict load ⟨line, .remove expected⟩ s
      = (e.removeLine strict f line expected, s) := by
    intro strict
    rw [read_of_ne (by simp), step, hopened]
  by_cases hfound : f.buffer.lines[e.cursor]? = some expected
  · let buffer := { f.buffer with lines := f.buffer.lines.eraseIdx e.cursor }
    refine .of_silent { e with last := .removed, opened := some { f with buffer } }
      (fun strict => ?_) rfl
    rw [hread, removeLine, if_pos hfound]
  · refine .removal { e.warn (.removalMismatch f.path line expected f.buffer.lines[e.cursor]?) with
      last := .removed } f.path expected f.buffer.lines[e.cursor]? ?_ ?_ rfl
    · rw [hread, removeLine, if_neg hfound, if_pos rfl]
    · rw [hread, removeLine, if_neg hfound, if_neg Bool.false_ne_true]

theorem modes_context (line : Nat) (expected : Text) {e : Engine} {f : OpenFile}
    (hopened : e.opened = some f) (s : σ) : Modes rule load ⟨line, .context expected⟩ e s := by
  have hread : ∀ strict, e.read rule strict load ⟨line, .context expected⟩ s
      = (e.keepLine rule strict f line expected, s) := by
    intro strict
    rw [read_of_ne (by simp), step, hopened]
  let kept := { e with last := .kept, cursor := rule.advance e.cursor }
  by_cases hfound : f.buffer.lines[e.cursor]? = some expected
  · refine .of_silent kept (fun strict => ?_) rfl
    rw [hread, keepLine]
    simp [hfound, kept]
  · refine .context kept f.path expected f.buffer.lines[e.cursor]? ?_ ?_ rfl
    · rw [hread, keepLine]
      simp [hfound]
    · rw [hread, keepLine]
      rfl

/-- Every token has one of the three outcomes. -/
theorem read_modes (rule : CursorRule) (load : σ → Text → Loaded × σ) (token : Token) (e : Engine)
    (s : σ) : Modes rule load token e s := by
  obtain ⟨line, kind⟩ := token
  cases kind with
  | oldHeader path => exact .of_silent (e.oldHeader path) (fun strict => rfl) (flush_warnings e)
  | newHeader path =>
    cases path with
    | some path =>
      obtain ⟨ws, hwarnings, hquiet⟩ := openFile_warnings load e path s
      exact .same ws rfl rfl hwarnings hquiet
    | none =>
      obtain ⟨ws, hwarnings, hquiet⟩ := skipDeletion_warnings e
      exact .same ws rfl rfl hwarnings hquiet
  | hunk header =>
    exact .of_silent { e with cursor := header.cursor, last := .kept } (fun strict => rfl) rfl
  | other => exact .of_silent e (fun strict => read_other line e s) rfl
  -- the other kinds are about the open file
  | remove expected =>
    cases hopened : e.opened with
    | none => exact .of_dropped line rfl hopened s
    | some f => exact modes_remove line expected hopened s
  | context expected =>
    cases hopened : e.opened with
    | none => exact .of_dropped line rfl hopened s
    | some f => exact modes_context line expected hopened s
  | add added =>
    cases hopened : e.opened with
    | none => exact .of_dropped line rfl hopened s
    | some f =>
      refine .of_silent (e.addLine f added) (fun strict => ?_) rfl
      rw [read_of_ne (by simp), step, hopened]
  | noNewline =>
    cases hopened : e.opened with
    | none => exact .of_dropped line rfl hopened s
    | some f =>
      refine .of_silent (e.markEnd f) (fun strict => ?_) rfl
      rw [read_of_ne (by simp), step, hopened]

/-! ## Runs -/

/-- The tolerant mode reads every token, and its mismatches are at lines of tokens. -/
theorem exists_run_tolerant (rule : CursorRule) (load : σ → Text → Loaded × σ)
    (tokens : List Token) (e : Engine) (s : σ) :
    ∃ e' s' ws, run rule false load tokens e s = (.ok e', s') ∧ e'.warnings = e.warnings ++ ws ∧
      ∀ path n expected found, .removalMismatch path n expected found ∈ ws →
        ∃ token ∈ tokens, token.line = n := by
  induction tokens generalizing e s with
  | nil => exact ⟨e, s, [], rfl, (List.append_nil _).symm, by simp⟩
  | cons token tokens ih =>
    -- the warnings of the token, and then those of the rest
    have hcons : ∀ {e₁ : Engine} {s₁ : σ} (ws : List PatchWarning),
        e.read rule false load token s = (.ok e₁, s₁) → e₁.warnings = e.warnings ++ ws →
        (∀ path n expected found, .removalMismatch path n expected found ∈ ws → token.line = n) →
        ∃ e' s' ws, run rule false load (token :: tokens) e s = (.ok e', s') ∧
          e'.warnings = e.warnings ++ ws ∧
          ∀ path n expected found, .removalMismatch path n expected found ∈ ws →
            ∃ t ∈ token :: tokens, t.line = n := by
      intro e₁ s₁ ws hread hwarnings hlines
      obtain ⟨e', s', ws', hrun, hwarnings', hlines'⟩ := ih e₁ s₁
      refine ⟨e', s', ws ++ ws', ?_, ?_, ?_⟩
      · rw [run_cons_eq, hread]
        exact hrun
      · rw [hwarnings', hwarnings, List.append_assoc]
      · intro path n expected found hmem
        rcases List.mem_append.1 hmem with hmem | hmem
        · exact ⟨token, List.mem_cons_self .., hlines path n expected found hmem⟩
        · obtain ⟨t, ht, hline⟩ := hlines' path n expected found hmem
          exact ⟨t, List.mem_cons_of_mem _ ht, hline⟩
    cases read_modes rule load token e s with
    | same ws strict tolerant warnings quiet =>
      refine hcons ws tolerant warnings fun path n expected found hmem => ?_
      have := quiet _ hmem
      cases this
    | removal _ path expected found strict tolerant warnings =>
      refine hcons _ tolerant warnings fun path' n expected' found' hmem => ?_
      cases List.mem_singleton.1 hmem
      rfl
    | context _ path expected found strict tolerant warnings =>
      exact hcons [] tolerant (by rw [warnings, List.append_nil]) (by simp)

/-- Where the strict mode succeeds the tolerant one does the same, and no removed line differs. -/
theorem run_tolerant_of_strict {tokens : List Token} {e e' : Engine} {s s' : σ}
    (h : run rule true load tokens e s = (.ok e', s')) :
    run rule false load tokens e s = (.ok e', s') ∧
      ∃ ws, e'.warnings = e.warnings ++ ws ∧ ∀ w ∈ ws, w.isMismatch = false := by
  induction tokens generalizing e s with
  | nil =>
    cases h
    exact ⟨rfl, [], (List.append_nil _).symm, by simp⟩
  | cons token tokens ih =>
    rw [run_cons_eq] at h
    cases read_modes rule load token e s with
    | same ws strict tolerant warnings quiet =>
      rw [strict] at h
      obtain ⟨hrun, ws', hwarnings, hquiet⟩ := ih h
      refine ⟨?_, ws ++ ws', ?_, List.forall_mem_append.2 ⟨quiet, hquiet⟩⟩
      · rw [run_cons_eq, tolerant]
        exact hrun
      · rw [hwarnings, warnings, List.append_assoc]
    | removal _ path expected found strict tolerant warnings =>
      rw [strict] at h
      cases h
    | context _ path expected found strict tolerant warnings =>
      rw [strict] at h
      cases h

/-- Where the strict mode stops the tolerant one goes on: with a warning for a removed line, and
without one for a context line. -/
theorem exists_run_of_stop {tokens : List Token} (hlines : tokens.Pairwise fun t u => t.line < u.line)
    {e : Engine} {s s' : σ} {err : PatchError}
    (h : run rule true load tokens e s = (.error err, s')) :
    ∃ e' s'' ws ws', run rule false load tokens e s = (.ok e', s'') ∧
      (∀ w ∈ ws, w.isMismatch = false) ∧
      ((∃ n path expected found, err = .removalMismatch n path expected found ∧
          e'.warnings = e.warnings ++ ws ++ .removalMismatch path n expected found :: ws') ∨
        (∃ n path expected found, err = .contextMismatch n path expected found ∧
          e'.warnings = e.warnings ++ ws ++ ws' ∧
          ∀ path m expected found, .removalMismatch path m expected found ∈ ws' → n < m)) := by
  obtain ⟨front, token, back, e₁, s₁, rfl, hfront, hstop⟩ := exists_stop h
  -- the modes agree before the token that stops the strict one
  obtain ⟨hfront', ws, hwarnings, hquiet⟩ := run_tolerant_of_strict hfront
  have htolerant : ∀ {e₂ e₃ : Engine} {s₂ s₃ : σ},
      e₁.read rule false load token s₁ = (.ok e₂, s₂) →
      run rule false load back e₂ s₂ = (.ok e₃, s₃) →
      run rule false load (front ++ token :: back) e s = (.ok e₃, s₃) := by
    intro e₂ e₃ s₂ s₃ hread hback
    rw [run_append, hfront']
    dsimp only
    rw [run_cons_eq, hread]
    exact hback
  cases read_modes rule load token e₁ s₁ with
  | same _ strict tolerant warnings quiet =>
    rw [strict] at hstop
    cases hstop
  | removal e₂ path expected found strict tolerant warnings =>
    obtain ⟨e₃, s₃, ws', hback, hwarnings', -⟩ := exists_run_tolerant rule load back e₂ s₁
    rw [strict] at hstop
    cases hstop
    refine ⟨e₃, s₃, ws, ws', htolerant tolerant hback, hquiet, .inl ⟨_, path, expected, found, rfl, ?_⟩⟩
    rw [hwarnings', warnings, hwarnings, List.append_assoc _ [_], List.singleton_append]
  | context e₂ path expected found strict tolerant warnings =>
    obtain ⟨e₃, s₃, ws', hback, hwarnings', hlater⟩ := exists_run_tolerant rule load back e₂ s₁
    rw [strict] at hstop
    cases hstop
    refine ⟨e₃, s₃, ws, ws', htolerant tolerant hback, hquiet,
      .inr ⟨_, path, expected, found, rfl, ?_, ?_⟩⟩
    · rw [hwarnings', warnings, hwarnings]
    · -- the numbers of the tokens go up
      intro path' m expected' found' hmem
      obtain ⟨t, ht, rfl⟩ := hlater path' m expected' found' hmem
      have hback := (List.pairwise_append.1 hlines).2.1
      exact (List.pairwise_cons.1 hback).1 t ht

end Engine

/-! ## Patches -/

/-- How the result of the strict mode determines that of the tolerant one. -/
structure StrictRefines (strict tolerant : Except PatchError ApplyResult) : Prop where
  ok : ∀ r, strict = .ok r → tolerant = .ok r ∧
    ∀ path n expected found, .removalMismatch path n expected found ∉ r.warnings
  /-- The first warning about a removed line that differs says what the strict mode says. -/
  removal : ∀ n path expected found, strict = .error (.removalMismatch n path expected found) →
    ∃ r, tolerant = .ok r ∧ r.warnings.find? PatchWarning.isMismatch
      = some (.removalMismatch path n expected found)
  /-- Removed lines differ only after a context line that differs. -/
  context : ∀ n path expected found, strict = .error (.contextMismatch n path expected found) →
    ∃ r, tolerant = .ok r ∧
      ∀ path' m expected' found', .removalMismatch path' m expected' found' ∈ r.warnings → n < m
  unparseable_iff : ∀ n text, strict = .error (.unparseableHeader n text) ↔
    tolerant = .error (.unparseableHeader n text)

/-- Warnings without a mismatch. -/
theorem removalMismatch_notMem {ws : List PatchWarning} (h : ∀ w ∈ ws, w.isMismatch = false)
    (path : Text) (n : Nat) (expected : Text) (found : Option Text) :
    .removalMismatch path n expected found ∉ ws := by
  intro hmem
  have hquiet := h _ hmem
  cases hquiet

/-- The strict mode refines the tolerant mode: the two agree when the strict one succeeds, the first
mismatch of the strict one is the first of the tolerant one, and only a hunk header that is none
makes the tolerant one fail. -/
theorem apply_strictRefines {σ : Type} (load : σ → Text → Loaded × σ) (patch : Text) (s : σ) :
    StrictRefines (apply true load patch s).1 (apply false load patch s).1 := by
  cases htokens : tokenize patch with
  | error err =>
    obtain ⟨m, text, rfl⟩ := eq_unparseableHeader_of_tokenizeFrom htokens
    rw [apply_of_tokenize_error htokens, apply_of_tokenize_error htokens]
    exact ⟨by simp, by simp, by simp, by simp⟩
  | ok tokens =>
    rw [apply_of_tokenize htokens, apply_of_tokenize htokens]
    rcases hrun : Engine.run .word true load tokens {} s with ⟨err | e, s'⟩
    · obtain ⟨e, s'', ws, ws', htolerant, hquiet, hstop⟩ :=
        Engine.exists_run_of_stop (pairwise_line_of_tokenize htokens) hrun
      rw [htolerant]
      have hresult : e.result.warnings = e.warnings := Engine.flush_warnings e
      rcases hstop with ⟨n, path, expected, found, rfl, hwarnings⟩ |
        ⟨n, path, expected, found, rfl, hwarnings, hlater⟩
      · refine ⟨by simp, ?_, by simp, by simp⟩
        intro _ _ _ _ herr
        cases herr
        refine ⟨e.result, rfl, ?_⟩
        rw [hresult, hwarnings, List.find?_append, List.find?_append, List.find?_nil,
          List.find?_eq_none.2 fun w hw => by simp [hquiet w hw]]
        rfl
      · refine ⟨by simp, by simp, ?_, by simp⟩
        intro _ _ _ _ herr
        cases herr
        refine ⟨e.result, rfl, ?_⟩
        intro path' m expected' found' hmem
        rw [hresult, hwarnings] at hmem
        rcases List.mem_append.1 hmem with hmem | hmem
        · exact absurd hmem (removalMismatch_notMem hquiet path' m expected' found')
        · exact hlater path' m expected' found' hmem
    · obtain ⟨htolerant, ws, hwarnings, hquiet⟩ := Engine.run_tolerant_of_strict hrun
      rw [htolerant]
      refine ⟨?_, by simp, by simp, by simp⟩
      intro r hr
      cases hr
      refine ⟨rfl, removalMismatch_notMem ?_⟩
      rw [Engine.result, Engine.flush_warnings, hwarnings]
      exact hquiet

end Patch

end Mend
