import Mend.Proofs.Patch.FinalLineFeed

/-!
# Contents that are carried over

Behind each of its blocks a file is its content again, and the next block of the path reads the content
back into lines. Nothing is lost on the way: writing what was read gives the content, and reading what
was written gives the buffer, but for one that hides its end (`LineBuffer.ofContent_content_iff`).

So what a patch leaves of a file in one block is what it finds in the next one, whatever stands between
the two, and a file whose blocks hold context lines only keeps its content
(`Patch.contents_carried`). Only a line that edits the open file changes what there is of it; headers
finish the file and open it again, and that carries the buffer over (`Patch.Engine.Carries`).
-/

namespace Mend

open Text (lf)

/-- A buffer is read back from its content exactly when its lines are lines and it does not hide its
end. -/
theorem LineBuffer.ofContent_content_iff {b : LineBuffer} :
    ofContent b.content = b ↔ (∀ l ∈ b.lines, lf ∉ l) ∧ b.hidesEnd = false := by
  refine ⟨fun h => ?_, fun ⟨hlf, hend⟩ => ofContent_content hlf hend⟩
  have hlf : ∀ l ∈ b.lines, lf ∉ l := by
    rw [← h]
    exact lf_notMem_ofContent b.content
  have hended := ended_ofContent_content hlf
  rw [h] at hended
  refine ⟨hlf, ?_⟩
  rw [hidesEnd, hended]
  -- what is read back is ended wherever the end cannot be seen, so the buffer was
  cases b.ended <;> cases b.endsBlank <;> rfl

namespace Patch

/-! ## Blocks -/

/-- Whether a token can change the file of its block. -/
def isEdit : TokenKind → Bool
  | .remove _ | .add _ | .noNewline => true
  | _ => false

/-- The path of the block behind a token, given the one before it. -/
def pathBehind (path : Option Text) (token : Token) : Option Text :=
  match token.kind with
  | .oldHeader _ => none
  | .newHeader path => path
  | _ => path

/-- The path of the block that stands at the end of the tokens. -/
def blockPath (tokens : List Token) : Option Text := tokens.foldl pathBehind none

/-- None of the tokens `mid`, which stand behind `front`, edits the file with the path. -/
def Spares (path : Text) (front mid : List Token) : Prop :=
  ∀ i < mid.length, ∀ token ∈ mid[i]?, isEdit token.kind = true →
    blockPath (front ++ mid.take i) ≠ some path

instance (path : Text) (front mid : List Token) : Decidable (Spares path front mid) :=
  inferInstanceAs (Decidable (∀ i < mid.length, ∀ token ∈ mid[i]?, isEdit token.kind = true →
    blockPath (front ++ mid.take i) ≠ some path))

theorem blockPath_concat (tokens : List Token) (token : Token) :
    blockPath (tokens ++ [token]) = pathBehind (blockPath tokens) token := by
  rw [blockPath, List.foldl_append]
  rfl

theorem pathBehind_of_isFileHeader {n : Nat} {kind : TokenKind} (h : isFileHeader kind = false)
    (path : Option Text) : pathBehind path ⟨n, kind⟩ = path := by
  cases kind with
  | oldHeader _ | newHeader _ => cases h
  | _ => rfl

namespace Engine

variable {σ : Type} {rule : CursorRule} {strict : Bool} {load : σ → Text → Loaded × σ}
  {e e' e₁ : Engine} {s s' s₁ : σ} {path : Text} {b : LineBuffer} {front mid tokens : List Token}

/-- The open file is the one of the block. -/
theorem blockPath_of_run (hrun : run rule strict load tokens {} s = (.ok e, s')) {f : OpenFile}
    (hopened : e.opened = some f) : blockPath tokens = some f.path := by
  refine run_induction (P := fun front e _ => ∀ f, e.opened = some f → blockPath front = some f.path)
    (fun f hf => by cases hf) ?_ hrun f hopened
  intro front token back e₁ s₁ e₂ s₂ _ _ ih hreads f hf
  rw [blockPath_concat]
  cases hreads with
  | oldHeader n old => cases e₁.flush_opened.symm.trans hf
  | deletion n => cases e₁.skipDeletion_opened.symm.trans hf
  | target n path opens =>
    have hpath : f.path = path := path_of_openFile load (by rw [opens]; exact hf)
    rw [hpath]
    rfl
  | @line e₂ n kind not_header passes =>
    rw [pathBehind_of_isFileHeader not_header]
    obtain ⟨g, hopened, ⟨buffer, rfl⟩, -⟩ := passes.exists_opened hf
    exact ih g hopened

/-! ## One token -/

/-- An open file with the path is finished with what its buffer holds, unless it is dropped. -/
theorem content?_flush_of_opened {f : OpenFile} (hopened : e.opened = some f)
    (hkept : f.present = true ∨ f.buffer.lines ≠ []) :
    ApplyResult.content? e.flush.files f.path = some f.buffer.content := by
  rcases e.content?_flush_cases f.path with ⟨g, hg, -, hflush⟩ | ⟨hdropped, -⟩
  · cases hopened.symm.trans hg
    exact hflush
  · obtain ⟨hpresent, hlines⟩ := hdropped f hopened rfl
    rcases hkept with hkept | hkept
    · cases hkept.symm.trans hpresent
    · exact absurd hlines hkept

theorem files_flush_congr (hopened : e'.opened = e.opened) (hfiles : e'.files = e.files) :
    e'.flush.files = e.flush.files := by
  rw [flush, flush, hopened]
  cases e.opened with
  | none => exact hfiles
  | some f =>
    dsimp only
    rw [hfiles]
    split <;> rfl

/-- Finishing a file is about its path alone. -/
theorem content?_flush_of_ne (h : ∀ f, e.opened = some f → f.path ≠ path) :
    ApplyResult.content? e.flush.files path = ApplyResult.content? e.files path := by
  rcases e.content?_flush_cases path with ⟨f, hopened, hpath, -⟩ | ⟨-, hflush⟩
  · exact absurd hpath (h f hopened)
  · exact hflush

/-- A token that edits nothing leaves the open file as it is. -/
theorem Passes.opened_eq {n : Nat} {kind : TokenKind} (h : Passes e n kind e')
    (hkind : isEdit kind = false) : e'.opened = e.opened := by
  cases hopened : e.opened with
  | none => exact (h.closed hopened).1
  | some f =>
    have hended := h.ended (by rintro rfl; cases hkind)
    cases h.effect f hopened with
    | deleted | skipped | added => cases hkind
    | @passed _ _ ended _ _ opened' _ =>
      rw [ended?, ended?, hopened, opened'] at hended
      obtain rfl : ended = f.buffer.ended := Option.some.inj hended
      exact opened'

/-- The engine has the content of a buffer for the path, and if the file is open, then with the buffer
or with what is read back from its content. -/
structure Carries (e : Engine) (path : Text) (b : LineBuffer) : Prop where
  content : ApplyResult.content? e.flush.files path = some b.content
  opened : ∀ f, e.opened = some f → f.path = path →
    f.buffer = b ∨ f.buffer = LineBuffer.ofContent b.content

theorem carries_of_opened {f : OpenFile} (hopened : e.opened = some f)
    (hkept : f.present = true ∨ f.buffer.lines ≠ []) : e.Carries f.path f.buffer := by
  refine ⟨content?_flush_of_opened hopened hkept, fun g hg _ => ?_⟩
  cases hopened.symm.trans hg
  exact .inl rfl

/-- A file header finishes the file, and may open it again from its content. -/
theorem Carries.of_flush (h : e.Carries path b) (hfiles : e'.files = e.flush.files)
    (hopened : ∀ f, e'.opened = some f → f.path = path →
      f = ⟨path, .ofContent b.content, true⟩) : e'.Carries path b := by
  refine ⟨?_, fun f hf hpath => .inr (by rw [hopened f hf hpath])⟩
  -- a file that is opened again is written as it was read, and another one is not this file
  by_cases hagain : ∃ f, e'.opened = some f ∧ f.path = path
  · obtain ⟨f, hf, hpath⟩ := hagain
    obtain rfl := hopened f hf hpath
    rw [content?_flush_of_opened hf (.inl rfl), LineBuffer.content_ofContent]
  · rw [content?_flush_of_ne fun f hf hpath => hagain ⟨f, hf, hpath⟩, hfiles]
    exact h.content

/-- What the engine has for a path is carried over each token that does not edit the file. -/
theorem Carries.reads (h : e.Carries path b) {token : Token} (hreads : Reads load e s token e' s')
    (hspares : isEdit token.kind = true → ∀ f, e.opened = some f → f.path ≠ path) :
    e'.Carries path b := by
  cases hreads with
  | oldHeader n old =>
    refine h.of_flush rfl fun f hf _ => ?_
    cases e.flush_opened.symm.trans hf
  | deletion n =>
    refine h.of_flush e.skipDeletion_files fun f hf _ => ?_
    cases e.skipDeletion_opened.symm.trans hf
  | target n other opens =>
    have hfiles := openFile_files load e other s
    rw [opens] at hfiles
    refine h.of_flush hfiles fun f hf hpath => ?_
    have hopened : (e.openFile load other s).1.opened = some f := by rw [opens]; exact hf
    obtain rfl : other = path := (path_of_openFile load hopened).symm.trans hpath
    rw [openFile_of_content? h.content] at hopened
    exact (Option.some.inj hopened).symm
  | @line e' n kind not_header passes =>
    by_cases hother : ∀ f, e.opened = some f → f.path ≠ path
    · -- the line is about another file, or about none
      have hother' : ∀ f, e'.opened = some f → f.path ≠ path := by
        intro f hf
        obtain ⟨g, hopened, ⟨buffer, rfl⟩, -⟩ := passes.exists_opened hf
        exact hother g hopened
      refine ⟨?_, fun f hf hpath => absurd hpath (hother' f hf)⟩
      rw [content?_flush_of_ne hother', passes.files, ← content?_flush_of_ne hother]
      exact h.content
    · -- the line is about the file, and so it is no edit
      have hkind : isEdit kind = false := by
        rw [Bool.eq_false_iff]
        exact fun hedit => hother (hspares hedit)
      have hopened := passes.opened_eq hkind
      exact ⟨files_flush_congr hopened passes.files ▸ h.content, hopened ▸ h.opened⟩

/-! ## Several tokens -/

theorem Carries.run (h : e.Carries path b) (hfront : run rule strict load front {} s = (.ok e, s₁))
    (hmid : Engine.run rule strict load mid e s₁ = (.ok e', s')) (hspares : Spares path front mid) :
    e'.Carries path b := by
  refine run_induction (P := fun _ e _ => e.Carries path b) h ?_ hmid
  rintro before token after e₂ s₂ e₃ s₃ rfl hbefore ih hreads
  -- if the token edits the open file, then the block is one of its path
  refine ih.reads hreads fun hedit f hf hpath => ?_
  have hrun : Engine.run rule strict load (front ++ before) {} s = (.ok e₂, s₂) := by
    rw [run_append, hfront]
    exact hbefore
  have hother := hspares before.length (by simp) token (by simp) hedit
  rw [List.take_left] at hother
  exact hother (hpath ▸ blockPath_of_run hrun hf)

/-- The lines of an open file are lines: they come from a content or from a line of the patch. -/
theorem lf_notMem_of_run {patch : Text} {back : List Token}
    (htokens : tokenize patch = .ok (tokens ++ back))
    (hrun : Engine.run rule strict load tokens {} s = (.ok e, s')) {f : OpenFile}
    (hopened : e.opened = some f) : ∀ l ∈ f.buffer.lines, lf ∉ l := by
  refine run_induction (P := fun _ e _ => ∀ f, e.opened = some f → ∀ l ∈ f.buffer.lines, lf ∉ l)
    (fun f hf => by cases hf) ?_ hrun f hopened
  intro before token after e₁ s₁ e₂ s₂ heq _ ih hreads f hf
  cases hreads with
  | oldHeader n old => cases e₁.flush_opened.symm.trans hf
  | deletion n => cases e₁.skipDeletion_opened.symm.trans hf
  | target n path opens =>
    obtain ⟨t, present, rfl⟩ := exists_of_openFile load (by rw [opens]; exact hf)
    exact LineBuffer.lf_notMem_ofContent t
  | @line e₂ n kind not_header passes =>
    obtain ⟨g, hopened, -, hmem⟩ := passes.exists_opened hf
    intro l hl
    rcases hmem l hl with hold | hnew
    · exact ih g hopened l hold
    · subst hnew
      refine lf_notMem_of_add (n := n) htokens ?_
      rw [heq]
      simp

end Engine

/-! ## Patches -/

section Patches

variable {σ : Type} (strict : Bool) (load : σ → Text → Loaded × σ) (s : σ)

/-- Behind the tokens a block of the path stands open with the buffer. A file that was not found and got
no lines does not count, as it is dropped. -/
def OpenBehind (tokens : List Token) (path : Text) (b : LineBuffer) : Prop :=
  ∃ e s' f, Engine.run .word strict load tokens {} s = (.ok e, s') ∧ e.opened = some f ∧
    f.path = path ∧ f.buffer = b ∧ (f.present = true ∨ b.lines ≠ [])

variable {strict load s} {s' : σ} {patch path c : Text} {b : LineBuffer} {e : Engine} {i : Nat}
  {tokens front mid : List Token}

theorem OpenBehind.carries (h : OpenBehind strict load s front path b) (hspares : Spares path front mid)
    (hrun : Engine.run .word strict load (front ++ mid) {} s = (.ok e, s')) : e.Carries path b := by
  obtain ⟨e₁, s₁, f, hfront, hopened, rfl, rfl, hkept⟩ := h
  rw [Engine.run_append, hfront] at hrun
  exact (Engine.carries_of_opened hopened hkept).run hfront hrun hspares

/-- The block at whose header a file is loaded stands open with what was loaded. -/
theorem LoadsAt.openBehind (h : LoadsAt strict load s tokens path c i) :
    OpenBehind strict load s (tokens.take (i + 1)) path (.ofContent c) := by
  obtain ⟨n, e, s₁, htoken, hrun, hnone, hcontent⟩ := h
  have hopened := Engine.openFile_of_load hnone hcontent
  refine ⟨_, (e.openFile load path s₁).2, _, ?_, hopened, rfl, rfl, .inl rfl⟩
  rw [List.take_add_one, htoken, Option.toList_some, Engine.run_append, hrun]
  rfl

/-- A content is written as it was read, and a buffer is read back as it was written unless it hides its
end. So behind tokens that do not edit a file the patch has the content that it had before, and opens
the file with the same buffer; and a file that is loaded and not edited keeps its content. -/
theorem contents_carried (strict : Bool) (load : σ → Text → Loaded × σ) (s : σ)
    (htokens : tokenize patch = .ok tokens) :
    (∀ c : Text, (LineBuffer.ofContent c).content = c) ∧
      (∀ b : LineBuffer, LineBuffer.ofContent b.content = b ↔
        (∀ l ∈ b.lines, lf ∉ l) ∧ b.hidesEnd = false) ∧
      (∀ front mid back path b e s', tokens = front ++ (mid ++ back) →
        OpenBehind strict load s front path b → Spares path front mid →
        Engine.run .word strict load (front ++ mid) {} s = (.ok e, s') →
          ApplyResult.content? e.result.files path = some b.content ∧
          ∀ f, e.opened = some f → f.path = path →
            f.buffer.content = b.content ∧ (b.hidesEnd = false → f.buffer = b)) ∧
      ∀ path c i r s', apply strict load patch s = (.ok r, s') →
        LoadsAt strict load s tokens path c i →
        Spares path (tokens.take (i + 1)) (tokens.drop (i + 1)) →
          ApplyResult.content? r.files path = some c := by
  refine ⟨LineBuffer.content_ofContent, fun b => LineBuffer.ofContent_content_iff, ?_, ?_⟩
  · rintro front mid back path b e s' rfl hopen hspares hrun
    have hcarries := hopen.carries hspares hrun
    refine ⟨hcarries.content, fun f hf hpath => ?_⟩
    obtain ⟨e₁, s₁, g, hfront, hopened, -, rfl, -⟩ := hopen
    have hlf := Engine.lf_notMem_of_run htokens hfront hopened
    rcases hcarries.opened f hf hpath with heq | heq
    · exact ⟨by rw [heq], fun _ => heq⟩
    · refine ⟨by rw [heq, LineBuffer.content_ofContent], fun hend => ?_⟩
      rw [heq, LineBuffer.ofContent_content hlf hend]
  · intro path c i r s' happly hloads hspares
    obtain ⟨e, hrun, rfl⟩ := exists_run_of_apply htokens happly
    rw [← List.take_append_drop (i + 1) tokens] at hrun
    have hcarries := hloads.openBehind.carries hspares hrun
    rw [← LineBuffer.content_ofContent c]
    exact hcarries.content

/-- A loader that knows two files, of which neither ends with a line feed. -/
def unendedFiles (path : Text) : Loaded :=
  if path = ['f'] then .content ['a']
  else if path = ['g'] then .content "\n\r\nx".toList
  else .notFound

/-- Two blocks of a file, and between them a block of another one that holds a context line only. -/
def sampleInterleaved : Text :=
  ("--- a/f\n+++ b/f\n@@ -1 +1 @@\n-a\n+b\n--- a/g\n+++ b/g\n@@ -3 +3 @@\n x\n" ++
    "--- a/f\n+++ b/f\n@@ -1 +1 @@\n-b\n+c\n").toList

def sampleInterleavedTokens : List Token :=
  [⟨1, .oldHeader (some ['f'])⟩, ⟨2, .newHeader (some ['f'])⟩, ⟨3, .hunk ⟨1, 1, 1, 1⟩⟩,
   ⟨4, .remove ['a']⟩, ⟨5, .add ['b']⟩, ⟨6, .oldHeader (some ['g'])⟩,
   ⟨7, .newHeader (some ['g'])⟩, ⟨8, .hunk ⟨3, 1, 3, 1⟩⟩, ⟨9, .context ['x']⟩,
   ⟨10, .oldHeader (some ['f'])⟩, ⟨11, .newHeader (some ['f'])⟩, ⟨12, .hunk ⟨1, 1, 1, 1⟩⟩,
   ⟨13, .remove ['b']⟩, ⟨14, .add ['c']⟩]

/-- Behind the header of its second block the file has the line that the first block left, still without
a line feed, and the other file is as it was. -/
theorem contents_carried_sample :
    OpenBehind true (recording unendedFiles) [] (sampleInterleavedTokens.take 5) ['f'] ⟨[['b']], false⟩ ∧
      Spares ['f'] (sampleInterleavedTokens.take 5) ((sampleInterleavedTokens.drop 5).take 6) ∧
      ApplyResult.content? [⟨['f'], ['b']⟩, ⟨['g'], "\n\r\nx".toList⟩] ['f'] = some ['b'] ∧
      apply true (recording unendedFiles) sampleInterleaved []
        = (.ok ⟨[⟨['f'], ['c']⟩, ⟨['g'], "\n\r\nx".toList⟩], []⟩, [['f'], ['g']]) ∧
      ApplyResult.content? [⟨['f'], ['c']⟩, ⟨['g'], "\n\r\nx".toList⟩] ['g']
        = some "\n\r\nx".toList := by
  have htokens : tokenize sampleInterleaved = .ok sampleInterleavedTokens := by decide +kernel
  obtain ⟨-, -, hblocks, hcontext⟩ := contents_carried true (recording unendedFiles) [] htokens
  -- the engine where the first block ends, and where the second one has been opened
  let left : OpenFile := ⟨['f'], ⟨[['b']], false⟩, true⟩
  let ended : Engine := { opened := some left, oldPath := some ['f'], cursor := 1, last := .added }
  let reopened : Engine :=
    { files := [⟨['f'], ['b']⟩, ⟨['g'], "\n\r\nx".toList⟩], opened := some left, oldPath := some ['f'] }
  have hopen : OpenBehind true (recording unendedFiles) [] (sampleInterleavedTokens.take 5) ['f']
      ⟨[['b']], false⟩ := ⟨ended, [['f']], left, by decide +kernel, rfl, rfl, rfl, .inl rfl⟩
  have hspares : Spares ['f'] (sampleInterleavedTokens.take 5)
      ((sampleInterleavedTokens.drop 5).take 6) := by decide +kernel
  have hrun : Engine.run .word true (recording unendedFiles)
      (sampleInterleavedTokens.take 5 ++ (sampleInterleavedTokens.drop 5).take 6) {} []
      = (.ok reopened, [['f'], ['g']]) := by decide +kernel
  have hfirst := (hblocks _ _ (sampleInterleavedTokens.drop 11) _ _ _ _ rfl hopen hspares hrun).1
  -- the other file is loaded at the seventh line
  let before : Engine :=
    { files := [⟨['f'], ['b']⟩], oldPath := some ['g'], cursor := 1, last := .added }
  have hloads : LoadsAt true (recording unendedFiles) [] sampleInterleavedTokens ['g']
      "\n\r\nx".toList 6 := ⟨7, before, [['f']], rfl, by decide +kernel, rfl, rfl⟩
  have happly : apply true (recording unendedFiles) sampleInterleaved []
      = (.ok ⟨[⟨['f'], ['c']⟩, ⟨['g'], "\n\r\nx".toList⟩], []⟩, [['f'], ['g']]) := by decide +kernel
  exact ⟨hopen, hspares, hfirst, happly, hcontext _ _ _ _ _ happly hloads (by decide +kernel)⟩

end Patches

end Patch

end Mend
