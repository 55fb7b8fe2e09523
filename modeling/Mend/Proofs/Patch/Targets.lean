import Mend.Proofs.Patch.Reads
import Mend.Proofs.Patch.Sources

/-!
# Targets and their files

Which files a patch produces and which ones it asks the loader for, when the loader answers by the path
alone (`Patch.apply_produces`). The paths of both are paths of the new side. Each produced file has a
path of its own and can be read, and every file that is there and named is produced. The loader is asked
for a path only while the patch has produced no file for it. A path that the patch only deletes is left
alone, with a warning.

The loader records what it is asked for (`Patch.recording`). What a call means is said by the tokens
before its header (`Patch.AsksAfresh`), and what is produced by the files that are finished or open
(`Patch.Engine.Keeps`).
-/

namespace Mend

namespace Patch

/-- A loader that answers by the path alone, and records what it is asked for. -/
def recording (known : Text → Loaded) (asked : List Text) (path : Text) : Loaded × List Text :=
  (known path, asked ++ [path])

/-- After the calls `before` the loader is asked for a path at a header of the new side, and the tokens
before that header produce no file with the path. -/
def AsksAfresh (patch : Text) (strict : Bool) (known : Text → Loaded) (before : List Text)
    (path : Text) : Prop :=
  ∃ front n back e, tokenize patch = .ok (front ++ ⟨n, .newHeader (some path)⟩ :: back) ∧
    Engine.run .word strict (recording known) front {} [] = (.ok e, before) ∧
    path ∉ e.result.files.map PatchedFile.path

/-- A path that headers name, but only as the old side of a file without a new one. -/
def OnlyDeleted (patch path : Text) : Prop :=
  ∃ tokens, tokenize patch = .ok tokens ∧ (∃ n, ⟨n, .oldHeader (some path)⟩ ∈ tokens) ∧
    (∀ n, ⟨n, .newHeader (some path)⟩ ∉ tokens) ∧
    ∀ front n back, tokens = front ++ ⟨n, .oldHeader (some path)⟩ :: back →
      ∃ m rest, back = ⟨m, .newHeader none⟩ :: rest

/-- What an accepted patch produces, and what it has asked the loader for. -/
structure Produces (patch : Text) (strict : Bool) (known : Text → Loaded) (r : ApplyResult)
    (asked : List Text) : Prop where
  distinct : (r.files.map PatchedFile.path).Nodup
  /-- A produced file is named by the new side and can be read. -/
  source : ∀ f ∈ r.files, Opens patch f.path ∧ ∀ reason, known f.path ≠ .unreadable reason
  complete : ∀ path content, Opens patch path → known path = .content content →
    path ∈ r.files.map PatchedFile.path
  calls : ∀ before path after, asked = before ++ path :: after →
    AsksAfresh patch strict known before path
  deleted : ∀ path, OnlyDeleted patch path → path ∉ r.files.map PatchedFile.path ∧ path ∉ asked ∧
    .deletionSkipped path ∈ r.warnings

/-- Only a path of the new side is asked for. -/
theorem AsksAfresh.opens {patch path : Text} {strict : Bool} {known : Text → Loaded}
    {before : List Text} (h : AsksAfresh patch strict known before path) : Opens patch path := by
  obtain ⟨front, n, back, e, htokens, -⟩ := h
  exact ⟨_, n, htokens, List.mem_append_right front (List.mem_cons_self ..)⟩

/-- A path of a produced file has a content. -/
theorem exists_content?_of_mem {files : List PatchedFile} {path : Text}
    (h : path ∈ files.map PatchedFile.path) :
    ∃ content, ApplyResult.content? files path = some content := by
  obtain ⟨f, hf, hpath⟩ := List.mem_map.1 h
  obtain ⟨g, hg⟩ := Option.isSome_iff_exists.1
    (List.find?_isSome.2 ⟨f, hf, decide_eq_true hpath⟩ : (files.find? fun f => f.path = path).isSome)
  exact ⟨g.content, by rw [ApplyResult.content?, hg, Option.map_some]⟩

namespace Engine

variable {strict : Bool} {known : Text → Loaded} {e e' : Engine} {asked asked' : List Text}
  {front : List Token} {token : Token} {path : Text}

/-! ## Calls -/

/-- Every call is made at a header of its path, before which no file of that path is produced. -/
def Asks (strict : Bool) (known : Text → Loaded) (front : List Token) (asked : List Text) : Prop :=
  ∀ before path after, asked = before ++ path :: after → ∃ front' n back e,
    front = front' ++ ⟨n, .newHeader (some path)⟩ :: back ∧
    run .word strict (recording known) front' {} [] = (.ok e, before) ∧
    path ∉ e.result.files.map PatchedFile.path

theorem Asks.concat (h : Asks strict known front asked) (token : Token) :
    Asks strict known (front ++ [token]) asked := by
  intro before path after hasked
  obtain ⟨front', n, back, e, rfl, hrun, hfresh⟩ := h before path after hasked
  exact ⟨front', n, back ++ [token], e, by simp, hrun, hfresh⟩

/-- One more call. -/
theorem Asks.call (h : Asks strict known front asked) (n : Nat)
    (hrun : run .word strict (recording known) front {} [] = (.ok e, asked))
    (hfresh : path ∉ e.result.files.map PatchedFile.path) :
    Asks strict known (front ++ [⟨n, .newHeader (some path)⟩]) (asked ++ [path]) := by
  intro before other after hasked
  rcases List.eq_nil_or_concat after with rfl | ⟨after, last, rfl⟩
  · -- the last call is the new one
    obtain ⟨rfl, hother⟩ := List.append_inj' hasked rfl
    obtain rfl := List.singleton_inj.1 hother
    exact ⟨front, n, [], e, rfl, hrun, hfresh⟩
  · rw [List.concat_eq_append, ← List.cons_append, ← List.append_assoc] at hasked
    exact h.concat _ before other after (List.append_inj' hasked rfl).1

/-- The loader is asked when no file with the path is produced so far. -/
theorem openFile_recording (known : Text → Loaded) (e : Engine) (path : Text)
    (asked : List Text) : (e.openFile (recording known) path asked).2 = asked ∨
      (e.openFile (recording known) path asked).2 = asked ++ [path] ∧
        path ∉ e.result.files.map PatchedFile.path := by
  rw [openFile]
  dsimp only
  split
  · exact .inl rfl
  · rename_i hnone
    refine .inr ⟨rfl, fun hmem => ?_⟩
    obtain ⟨content, hcontent⟩ := exists_content?_of_mem hmem
    cases hnone.symm.trans hcontent

theorem Asks.reads (h : Asks strict known front asked)
    (hrun : run .word strict (recording known) front {} [] = (.ok e, asked))
    (hreads : Reads (recording known) e asked token e' asked') :
    Asks strict known (front ++ [token]) asked' := by
  cases hreads with
  | oldHeader n path => exact h.concat _
  | deletion n => exact h.concat _
  | line not_header passes => exact h.concat _
  | target n path opens =>
    have hasked : asked' = (e.openFile (recording known) path asked).2 := by rw [opens]
    rcases openFile_recording known e path asked with heq | ⟨heq, hfresh⟩
    · rw [hasked, heq]
      exact h.concat _
    · rw [hasked, heq]
      exact h.call n hrun hfresh

theorem asks_of_run {tokens : List Token}
    (hrun : run .word strict (recording known) tokens {} [] = (.ok e, asked)) :
    Asks strict known tokens asked := by
  have hstart : Asks strict known [] [] := by
    intro before path after hasked
    cases List.append_eq_nil_iff.1 hasked.symm |>.2
  exact run_induction (P := fun front _ asked => Asks strict known front asked) hstart
    (fun _ _ _ _ _ _ _ _ hfront h hreads => h.reads hfront hreads) hrun

/-! ## Files that are there -/

/-- A file with the path is finished, or it is open and will be. -/
def Keeps (e : Engine) (path : Text) : Prop :=
  path ∈ e.files.map PatchedFile.path ∨
    ∃ f, e.opened = some f ∧ f.path = path ∧ f.present = true

theorem Keeps.flush (h : e.Keeps path) : path ∈ e.flush.files.map PatchedFile.path := by
  rw [Engine.flush]
  rcases h with hmem | ⟨f, hopened, rfl, hpresent⟩
  · split
    · exact hmem
    split
    · exact hmem
    · exact (ApplyResult.mem_paths_upsert _).2 (.inr hmem)
  · rw [hopened]
    dsimp only
    rw [hpresent]
    exact (ApplyResult.mem_paths_upsert _).2 (.inl rfl)

theorem Keeps.passes (h : e.Keeps path) {n : Nat} {kind : TokenKind} (hpasses : Passes e n kind e') :
    e'.Keeps path := by
  rcases h with hmem | ⟨f, hopened, hpath, hpresent⟩
  · exact .inl (hpasses.files ▸ hmem)
  · obtain ⟨buffer, hopened'⟩ := (hpasses.effect f hopened).exists_opened
    exact .inr ⟨_, hopened', hpath, hpresent⟩

theorem Keeps.reads (h : e.Keeps path) {σ : Type} {load : σ → Text → Loaded × σ} {s s' : σ}
    (hreads : Reads load e s token e' s') : e'.Keeps path := by
  have hfiles := hreads.files_eq
  cases hreads with
  | line not_header passes => exact h.passes passes
  | _ => exact .inl (hfiles ▸ h.flush)

/-- A file that is there is opened as one that is there. -/
theorem keeps_openFile {content : Text} (hknown : known path = .content content) (e : Engine)
    (asked : List Text) : (e.openFile (recording known) path asked).1.Keeps path := by
  rw [openFile]
  dsimp only
  split
  · exact .inr ⟨_, rfl, rfl, rfl⟩
  · rw [recording, hknown]
    exact .inr ⟨_, rfl, rfl, rfl⟩

/-- Every file that is there and named so far is kept. -/
theorem keeps_of_run {tokens : List Token}
    (hrun : run .word strict (recording known) tokens {} [] = (.ok e, asked)) {n : Nat}
    {content : Text} (hmem : ⟨n, .newHeader (some path)⟩ ∈ tokens)
    (hknown : known path = .content content) : e.Keeps path := by
  refine run_induction
    (P := fun front e _ => ⟨n, .newHeader (some path)⟩ ∈ front → e.Keeps path) nofun ?_ hrun hmem
  intro front token back e₁ s₁ e₂ s₂ _ _ hkeeps hreads hmem
  rcases List.mem_append.1 hmem with hold | hnew
  · exact (hkeeps hold).reads hreads
  · cases List.mem_singleton.1 hnew
    cases hreads with
    | target _ _ opens =>
      have heq : e₂ = (e₁.openFile (recording known) path s₁).1 := by rw [opens]
      rw [heq]
      exact keeps_openFile hknown e₁ s₁
    | line not_header _ => cases not_header

/-! ## Deletions -/

/-- The deletion of a file is skipped with a warning. -/
theorem deletionSkipped_mem {σ : Type} {load : σ → Text → Loaded × σ} {s s' : σ}
    {before after : List Token} {n m : Nat}
    (hrun : run .word strict load
      (before ++ ⟨n, .oldHeader (some path)⟩ :: ⟨m, .newHeader none⟩ :: after) e s = (.ok e', s')) :
    .deletionSkipped path ∈ e'.result.warnings := by
  obtain ⟨e₁, s₁, -, hrest⟩ := exists_run_of_append hrun
  -- the header of the old side leaves no file open, and the path for the warning
  let e₂ := e₁.oldHeader (some path)
  have hskip : e₂.skipDeletion = e₂.warn (.deletionSkipped path) := by
    rw [skipDeletion, flush_of_opened_eq_none (show e₂.opened = none from e₁.flush_opened)]
    rfl
  have hafter : run .word strict load after e₂.skipDeletion s₁ = (.ok e', s') := hrest
  have hwarned : .deletionSkipped path ∈ e₂.skipDeletion.warnings := by simp [hskip, warn]
  rw [result, flush_warnings]
  refine run_induction (P := fun _ e _ => .deletionSkipped path ∈ e.warnings) hwarned ?_ hafter
  intro front token back e₃ s₃ e₄ s₄ _ _ hmem hreads
  exact hreads.warnings_prefix.subset hmem

end Engine

/-! ## Patches -/

/-- A loader that records is asked for every file that is produced and was not there before. -/
theorem knows_recording (known : Text → Loaded) : Engine.Knows (recording known) (fun _ => True)
    fun asked path => path ∈ asked ∧ ∀ reason, known path ≠ .unreadable reason where
  kept _ _ _ := trivial
  known _ _ _ _ h := ⟨List.mem_append_left _ h.1, h.2⟩
  readable _ _ _ hreadable := ⟨List.mem_append_right _ (List.mem_singleton_self _), hreadable⟩

/-- A patch that deletes a path and names it nowhere else warns of that. -/
theorem deletionSkipped_mem_of_onlyDeleted {σ : Type} {strict : Bool} {load : σ → Text → Loaded × σ}
    {patch path : Text} {s s' : σ} {r : ApplyResult} (h : apply strict load patch s = (.ok r, s'))
    (hdeleted : OnlyDeleted patch path) : .deletionSkipped path ∈ r.warnings := by
  obtain ⟨tokens, htokens, ⟨n, hmem⟩, -, hpairs⟩ := hdeleted
  obtain ⟨front, back, rfl⟩ := List.append_of_mem hmem
  obtain ⟨m, rest, rfl⟩ := hpairs front n back rfl
  obtain ⟨e, hrun, rfl⟩ := exists_run_of_apply htokens h
  exact Engine.deletionSkipped_mem hrun

/-- An accepted patch produces the files that it names and that can be read, each once, and asks the
loader only for what it names and has not produced. -/
theorem apply_produces {strict : Bool} {known : Text → Loaded} {patch : Text} {r : ApplyResult}
    {asked : List Text} (h : apply strict (recording known) patch [] = (.ok r, asked)) :
    Produces patch strict known r asked := by
  obtain ⟨tokens, htokens⟩ := exists_tokens_of_apply h
  obtain ⟨e, hrun, rfl⟩ := exists_run_of_apply htokens h
  have hcalls : ∀ before path after, asked = before ++ path :: after →
      AsksAfresh patch strict known before path := by
    intro before path after hasked
    obtain ⟨front, n, back, e₀, rfl, hfront, hfresh⟩ :=
      Engine.asks_of_run hrun before path after hasked
    exact ⟨front, n, back, e₀, htokens, hfront, hfresh⟩
  have hopens : ∀ path ∈ asked, Opens patch path := by
    intro path hmem
    obtain ⟨before, after, hasked⟩ := List.append_of_mem hmem
    exact (hcalls before path after hasked).opens
  have hsources := (apply_sources (knows_recording known) trivial h).2
  refine ⟨apply_distinct h, fun f hf => ?_, fun path content hopen hknown => ?_, hcalls, ?_⟩
  · exact ⟨hopens f.path (hsources f hf).1, (hsources f hf).2⟩
  · obtain ⟨tokens', n, htokens', hmem⟩ := hopen
    obtain rfl : tokens = tokens' := Except.ok.inj (htokens.symm.trans htokens')
    exact (Engine.keeps_of_run hrun hmem hknown).flush
  · intro path hdeleted
    have hwarned := deletionSkipped_mem_of_onlyDeleted h hdeleted
    have hnot : ¬ Opens patch path := by
      rintro ⟨tokens', n, htokens', hmem⟩
      obtain ⟨tokens'', htokens'', -, hnone, -⟩ := hdeleted
      obtain rfl : tokens' = tokens'' := Except.ok.inj (htokens'.symm.trans htokens'')
      exact hnone n hmem
    refine ⟨fun hmem => ?_, fun hmem => hnot (hopens path hmem), hwarned⟩
    obtain ⟨f, hf, rfl⟩ := List.mem_map.1 hmem
    exact hnot (hopens f.path (hsources f hf).1)

/-- A file that is there, one that cannot be read and others that are not there. -/
def sampleKnown (path : Text) : Loaded :=
  if path = ['p'] then .content "a\n".toList
  else if path = ['u'] then .unreadable "denied".toList
  else .notFound

/-- A patch of one file in two blocks, a deletion, a file that cannot be read, and a missing file that
gets no line at first. -/
def sampleBlocks : Text :=
  "--- a/p\n+++ b/p\n@@ -1 +1 @@\n-a\n+b\n--- a/d\n+++ /dev/null\n@@ -1 +0,0 @@\n-x\n".toList ++
    "--- a/u\n+++ b/u\n@@ -1 +1 @@\n-q\n+r\n--- a/p\n+++ b/p\n@@ -1 +1 @@\n-b\n+c\n".toList ++
    "--- a/m\n+++ b/m\n@@ -1 +0,0 @@\n-z\n--- a/m\n+++ b/m\n@@ -0,0 +1 @@\n+w\n".toList

/-- The missing file is asked for again, the file with two blocks is not. -/
theorem apply_produces_sample :
    Produces sampleBlocks false sampleKnown
      ⟨[⟨['p'], "c\n".toList⟩, ⟨['m'], "w\n".toList⟩],
        [.deletionSkipped ['d'], .targetUnreadable ['u'] "denied".toList, .fileNotFound ['m'],
          .removalMismatch ['m'] 23 ['z'] none, .fileNotFound ['m']]⟩
      [['p'], ['u'], ['m'], ['m']] :=
  apply_produces (by decide +kernel)

end Patch

end Mend
