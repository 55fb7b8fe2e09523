import Mend.Proofs.Patch.Lines
import Mend.Proofs.Patch.Reads

/-!
# Where diagnostics point

What a patch reports of itself names the line that caused it (`Patch.apply_pointsAt`): a line that
differs from the file is the line of the patch that expects it, and its file is the one of the header
of a new side that was read last; a hunk header that is none is the first one. The warnings about
removed lines come in the order of their lines.

`Patch.Engine.Traced` is what the engine knows of its warnings and of the open file after the tokens
that it has read.
-/

namespace Mend

/-- The line of the patch that a warning points at, if it is about a removed line. -/
def PatchWarning.line? : PatchWarning → Option Nat
  | removalMismatch _ n _ _ => some n
  | _ => none

theorem PatchWarning.line?_of_isMismatch {w : PatchWarning} (h : w.isMismatch = false) :
    w.line? = none := by
  cases w with
  | removalMismatch path n expected found => cases h
  | _ => rfl

namespace Patch

/-- The path that a header of a new side names. -/
def newPath? : TokenKind → Option (Option Text)
  | .newHeader path => some path
  | _ => none

/-- What the last header of a new side names. -/
def lastTarget? (tokens : List Token) : Option (Option Text) :=
  (tokens.filterMap fun t => newPath? t.kind).getLast?

/-- The last header of a new side before a line names a path. -/
def Under (patch : Text) (n : Nat) (path : Text) : Prop :=
  ∃ before token after, tokenize patch = .ok (before ++ token :: after) ∧ token.line = n ∧
    lastTarget? before = some (some path)

/-- The warnings and errors of a patch point at the lines that caused them. -/
structure PointsAt (patch : Text) (result : Except PatchError ApplyResult) : Prop where
  warning : ∀ r path n expected found, result = .ok r →
    .removalMismatch path n expected found ∈ r.warnings →
    HasLine patch n ('-' :: expected) ∧ Under patch n path
  /-- The lines of the warnings go up. -/
  increasing : ∀ r, result = .ok r →
    (r.warnings.filterMap PatchWarning.line?).Pairwise (· < ·)
  removal : ∀ path n expected found, result = .error (.removalMismatch n path expected found) →
    HasLine patch n ('-' :: expected) ∧ Under patch n path
  /-- An empty context line may have lost its space. -/
  context : ∀ path n expected found, result = .error (.contextMismatch n path expected found) →
    (HasLine patch n (' ' :: expected) ∨ HasLine patch n [] ∧ expected = []) ∧ Under patch n path
  /-- No earlier line starts like a hunk header and is none. -/
  unparseable : ∀ n text, result = .error (.unparseableHeader n text) →
    HasLine patch n text ∧ hunkMark <+: text ∧ hunkHeader? text = none ∧
      ∀ m line, m < n → HasLine patch m line → hunkMark <+: line → hunkHeader? line ≠ none

/-! ## Headers of new sides -/

theorem lastTarget?_concat_newHeader (tokens : List Token) (n : Nat) (path : Option Text) :
    lastTarget? (tokens ++ [⟨n, .newHeader path⟩]) = some path := by
  rw [lastTarget?, List.filterMap_append]
  exact List.getLast?_concat

theorem lastTarget?_concat_of_newPath? {token : Token} (h : newPath? token.kind = none)
    (tokens : List Token) : lastTarget? (tokens ++ [token]) = lastTarget? tokens := by
  have hnone : ([token].filterMap fun t => newPath? t.kind) = [] := List.filterMap_cons_none h
  rw [lastTarget?, List.filterMap_append, hnone, List.append_nil, lastTarget?]

theorem newPath?_of_isFileHeader {kind : TokenKind} (h : isFileHeader kind = false) :
    newPath? kind = none := by
  cases kind with
  | newHeader path => cases h
  | _ => rfl

namespace Engine

variable {σ : Type} {rule : CursorRule} {strict : Bool} {load : σ → Text → Loaded × σ}
  {e e' : Engine} {s s' : σ} {front : List Token} {token : Token}

/-- What the engine knows after the tokens `front`. -/
structure Traced (front : List Token) (e : Engine) : Prop where
  opened : ∀ f, e.opened = some f → lastTarget? front = some (some f.path)
  /-- A warning about a removed line comes from its token. -/
  mismatch : ∀ path n expected found, .removalMismatch path n expected found ∈ e.warnings →
    ∃ before after, front = before ++ ⟨n, .remove expected⟩ :: after ∧
      lastTarget? before = some (some path)
  /-- The warnings come in the order of the tokens. -/
  lines : (e.warnings.filterMap PatchWarning.line?).Sublist (front.map Token.line)

theorem Traced.start : Traced [] {} :=
  ⟨nofun, nofun, .slnil⟩

/-- A token that warns of no removed line. -/
theorem Traced.quiet (h : Traced front e) {ws : List PatchWarning}
    (hwarnings : e'.warnings = e.warnings ++ ws) (hquiet : ∀ w ∈ ws, w.isMismatch = false)
    (hopened : ∀ f, e'.opened = some f → lastTarget? (front ++ [token]) = some (some f.path)) :
    Traced (front ++ [token]) e' := by
  refine ⟨hopened, ?_, ?_⟩
  · intro path n expected found hmem
    rw [hwarnings] at hmem
    have hold := (List.mem_append.1 hmem).resolve_right
      (removalMismatch_notMem hquiet path n expected found)
    obtain ⟨before, after, rfl, hlast⟩ := h.mismatch path n expected found hold
    exact ⟨before, after ++ [token], by simp, hlast⟩
  · have hnone : ws.filterMap PatchWarning.line? = [] :=
      List.filterMap_eq_nil_iff.2 fun w hw => PatchWarning.line?_of_isMismatch (hquiet w hw)
    rw [hwarnings, List.filterMap_append, hnone, List.append_nil, List.map_append]
    exact h.lines.trans (List.sublist_append_left ..)

/-- A token that gives no warning. -/
theorem Traced.silent (h : Traced front e) (hwarnings : e'.warnings = e.warnings)
    (hopened : ∀ f, e'.opened = some f → lastTarget? (front ++ [token]) = some (some f.path)) :
    Traced (front ++ [token]) e' :=
  have hnone : ∀ w ∈ ([] : List PatchWarning), w.isMismatch = false := nofun
  h.quiet (by rw [hwarnings, List.append_nil]) hnone hopened

/-- A removed line that differs. -/
theorem Traced.skipped (h : Traced front e) {n : Nat} {f : OpenFile} {expected : Text}
    {found : Option Text} (hopened : e.opened = some f) (hopened' : e'.opened = some f)
    (hwarnings : e'.warnings = e.warnings ++ [.removalMismatch f.path n expected found]) :
    Traced (front ++ [⟨n, .remove expected⟩]) e' := by
  have hlast := h.opened f hopened
  refine ⟨?_, ?_, ?_⟩
  · intro g hg
    obtain rfl : f = g := Option.some.inj (hopened'.symm.trans hg)
    rw [lastTarget?_concat_of_newPath? rfl, hlast]
  · intro path m expected' found' hmem
    rw [hwarnings] at hmem
    rcases List.mem_append.1 hmem with hold | hnew
    · obtain ⟨before, after, rfl, hbefore⟩ := h.mismatch path m expected' found' hold
      exact ⟨before, after ++ [⟨n, .remove expected⟩], by simp, hbefore⟩
    · cases List.mem_singleton.1 hnew
      exact ⟨front, [], rfl, hlast⟩
  · rw [hwarnings, List.filterMap_append, List.map_append]
    exact h.lines.append (List.Sublist.refl [n])

theorem Traced.passes (h : Traced front e) {n : Nat} {kind : TokenKind}
    (hkind : isFileHeader kind = false) (hpasses : Passes e n kind e') :
    Traced (front ++ [⟨n, kind⟩]) e' := by
  have hlast : lastTarget? (front ++ [⟨n, kind⟩]) = lastTarget? front :=
    lastTarget?_concat_of_newPath? (newPath?_of_isFileHeader hkind) front
  -- the file that is open stays open, with other lines or the same
  have hkept : ∀ {f : OpenFile} {buffer : LineBuffer}, e.opened = some f →
      e'.opened = some { f with buffer } → e'.warnings = e.warnings →
      Traced (front ++ [⟨n, kind⟩]) e' := by
    intro f buffer hopened hopened' hwarnings
    refine h.silent hwarnings fun g hg => ?_
    obtain rfl := Option.some.inj (hopened'.symm.trans hg)
    rw [hlast]
    exact h.opened f hopened
  cases hopened : e.opened with
  | none =>
    obtain ⟨hclosed, hwarnings⟩ := hpasses.closed hopened
    refine h.silent hwarnings fun f hf => ?_
    rw [hclosed] at hf
    cases hf
  | some f =>
    cases hpasses.effect f hopened with
    | deleted found lines_eq opened warnings => exact hkept hopened opened warnings
    | skipped found opened warnings => exact h.skipped hopened opened warnings
    | added place_le lines_eq opened warnings => exact hkept hopened opened warnings
    | passed not_removal not_added opened warnings => exact hkept hopened opened warnings

theorem Traced.reads (h : Traced front e) (hreads : Reads load e s token e' s') :
    Traced (front ++ [token]) e' := by
  cases hreads with
  | oldHeader n path =>
    refine h.silent e.flush_warnings fun f hf => ?_
    have hclosed : (e.oldHeader path).opened = none := e.flush_opened
    rw [hclosed] at hf
    cases hf
  | deletion n =>
    obtain ⟨ws, hwarnings, hquiet⟩ := skipDeletion_warnings e
    refine h.quiet hwarnings hquiet fun f hf => ?_
    rw [skipDeletion_opened] at hf
    cases hf
  | target n path opens =>
    obtain ⟨ws, hwarnings, hquiet⟩ := openFile_warnings load e path s
    rw [opens] at hwarnings
    refine h.quiet hwarnings hquiet fun f hf => ?_
    have hpath : f.path = path := by
      rw [show e' = (e.openFile load path s).1 by rw [opens]] at hf
      exact path_of_openFile load hf
    rw [lastTarget?_concat_newHeader, hpath]
  | line not_header passes => exact h.passes not_header passes

theorem Traced.run {tokens : List Token} (hrun : run rule strict load tokens {} s = (.ok e, s')) :
    Traced tokens e := by
  have hinvariant := run_induction (P := fun front e _ => Traced front e) Traced.start
    (fun front token back e₁ s₁ e₂ s₂ _ _ h hreads => h.reads hreads) hrun
  exact hinvariant

end Engine

/-! ## Patches -/

section Pointing

variable {patch : Text} {before after : List Token} {token : Token}

/-- A token of a hunk has a line of the patch, which its mark starts. -/
theorem exists_hasLine (h : tokenize patch = .ok (before ++ token :: after))
    (hkind : isHunkLine token.kind = true) :
    ∃ line, HasLine patch token.line line ∧ hunkLine line = token.kind := by
  obtain ⟨st, line, next, hline, hclassify⟩ :=
    exists_line_of_mem h (List.mem_append_right before (List.mem_cons_self ..))
  exact ⟨line, hasLine_of_mem hline, hunkLine_of_classify hclassify hkind⟩

theorem hasLine_remove {n : Nat} {expected : Text}
    (h : tokenize patch = .ok (before ++ ⟨n, .remove expected⟩ :: after)) :
    HasLine patch n ('-' :: expected) := by
  obtain ⟨line, hline, hread⟩ := exists_hasLine h rfl
  rw [← eq_of_hunkLine_remove hread]
  exact hline

theorem hasLine_context {n : Nat} {expected : Text}
    (h : tokenize patch = .ok (before ++ ⟨n, .context expected⟩ :: after)) :
    HasLine patch n (' ' :: expected) ∨ HasLine patch n [] ∧ expected = [] := by
  obtain ⟨line, hline, hread⟩ := exists_hasLine h rfl
  rcases eq_of_hunkLine_context hread with rfl | ⟨rfl, rfl⟩
  · exact .inl hline
  · exact .inr ⟨hline, rfl⟩

/-- A patch that is accepted. -/
theorem pointsAt_ok {tokens : List Token} (htokens : tokenize patch = .ok tokens) {e : Engine}
    (h : Engine.Traced tokens e) : PointsAt patch (.ok e.result) := by
  have hwarnings : e.result.warnings = e.warnings := e.flush_warnings
  refine ⟨?_, ?_, nofun, nofun, nofun⟩
  · intro r path n expected found hr hmem
    cases hr
    rw [hwarnings] at hmem
    obtain ⟨before, after, rfl, hlast⟩ := h.mismatch path n expected found hmem
    exact ⟨hasLine_remove htokens, before, _, after, htokens, rfl, hlast⟩
  · intro r hr
    cases hr
    rw [hwarnings]
    exact (List.pairwise_map.2 (pairwise_line_of_tokenize htokens)).sublist h.lines

/-- A patch that is stopped by a token. -/
theorem pointsAt_error {σ : Type} {strict : Bool} {load : σ → Text → Loaded × σ} {s s' : σ}
    {e : Engine} {err : PatchError} (htokens : tokenize patch = .ok (before ++ token :: after))
    (h : Engine.Traced before e)
    (hread : e.read .word strict load token s = (.error err, s')) :
    PointsAt patch (.error err) := by
  obtain ⟨f, expected, hopened, herr⟩ := Engine.exists_of_read_error hread
  have hunder : Under patch token.line f.path :=
    ⟨before, token, after, htokens, rfl, h.opened f hopened⟩
  obtain ⟨n, kind⟩ := token
  rcases herr with ⟨hkind, rfl⟩ | ⟨hkind, rfl⟩
  · obtain rfl : kind = _ := hkind
    refine ⟨nofun, nofun, ?_, nofun, nofun⟩
    intro path m expected' found heq
    cases heq
    exact ⟨hasLine_remove htokens, hunder⟩
  · obtain rfl : kind = _ := hkind
    refine ⟨nofun, nofun, nofun, ?_, nofun⟩
    intro path m expected' found heq
    cases heq
    exact ⟨hasLine_context htokens, hunder⟩

/-- A patch that cannot be read. -/
theorem pointsAt_unparseable {err : PatchError} (htokens : tokenize patch = .error err) :
    PointsAt patch (.error err) := by
  obtain ⟨n, text, rfl, hline, hmark, hheader, hearlier⟩ := exists_line_of_error htokens
  refine ⟨nofun, nofun, nofun, nofun, ?_⟩
  intro m text' heq
  cases heq
  exact ⟨hasLine_of_mem hline, hmark, hheader, fun m line hm hother =>
    hearlier line m (mem_of_hasLine hline hm hother) hm⟩

end Pointing

/-- The diagnostics of a patch point at the lines that caused them, in both modes and whatever the
loader answers. -/
theorem apply_pointsAt {σ : Type} (strict : Bool) (load : σ → Text → Loaded × σ) (patch : Text)
    (s : σ) : PointsAt patch (apply strict load patch s).1 := by
  rcases happly : apply strict load patch s with ⟨err | r, s'⟩
  · rcases cases_of_apply_error happly with
      ⟨htokens, -⟩ | ⟨front, token, back, e, htokens, hfront, hstop⟩
    · exact pointsAt_unparseable htokens
    · exact pointsAt_error htokens (.run hfront) hstop
  · obtain ⟨tokens, htokens⟩ := exists_tokens_of_apply happly
    obtain ⟨e, hrun, rfl⟩ := exists_run_of_apply htokens happly
    exact pointsAt_ok htokens (.run hrun)

end Patch

end Mend
