import Mathlib.Algebra.BigOperators.Group.Finset.Basic
import Mend.Proofs.Patch.Lines
import Mend.Proofs.Patch.Structure
import Mend.Proofs.Patch.Targets

/-!
# Line counts and their effect

The number of added and removed lines is read off the structure of a patch, and what the patch does
to the files is up to the engine, which skips removals that do not match. The two agree
(`Patch.apply_reconciles`): over all files that a tolerantly applied patch names, the line feeds that
are there afterwards, less those that were there before, are the added lines less the removed ones,
and one more for each removal that was skipped.

The files are whole lines, and no mark of a missing line feed takes one away. A deletion is counted
by the structure and skipped by the engine, so the files to delete and their lines are left out of the
count; with them it would not agree (`Patch.apply_reconciles_deletion`).

The engine is compared with the structure after each token (`Patch.Engine.Balanced`). The height of a
file is the number of its lines, whether it is open, finished or not touched yet
(`Patch.Engine.height`), so the headers of files leave all heights alone.
-/

namespace Mend

open Text (lf)

/-- A text of whole lines. -/
def Text.EndsLine (t : Text) : Prop := t = [] ∨ t.getLast? = some lf

/-- What is known of a file that is not there, or that is there with whole lines. -/
def Loaded.EndsLine : Loaded → Prop
  | .content t => t.EndsLine
  | .notFound => True
  | .unreadable _ => False

/-- The number of line feeds of a file. One that is not there has none. -/
def Loaded.lineFeeds : Loaded → Nat
  | .content t => t.count lf
  | .notFound | .unreadable _ => 0

/-! ## Buffers of whole lines -/

theorem Text.endsLine_unlines (ls : List Text) : (Text.unlines ls).EndsLine := by
  by_cases hls : ls = []
  · exact .inl (by rw [hls]; rfl)
  · exact .inr (by rw [Text.unlines_eq_joinWith hls, List.getLast?_concat])

namespace LineBuffer

/-- A buffer of lines that each end with their line feed. -/
structure Whole (b : LineBuffer) : Prop where
  ended : b.ended = true
  lf_notMem : ∀ l ∈ b.lines, lf ∉ l

variable {b : LineBuffer} {t : Text}

theorem content_of_ended (h : b.ended = true) : b.content = Text.unlines b.lines := by
  rw [content, h]
  by_cases hlines : b.lines = []
  · rw [hlines]
    rfl
  · rw [Text.unlines_eq_joinWith hlines]
    simp [hlines]

theorem Whole.count_content (h : b.Whole) : b.content.count lf = b.lines.length := by
  have hcount : ∀ ls : List Text, (∀ l ∈ ls, lf ∉ l) → (Text.unlines ls).count lf = ls.length := by
    intro ls hls
    induction ls with
    | nil => rfl
    | cons l ls ih =>
      obtain ⟨hl, hls⟩ := List.forall_mem_cons.1 hls
      rw [Text.unlines_cons, List.count_append, List.count_cons_self, List.count_eq_zero.2 hl, ih hls,
        List.length_cons]
      omega
  rw [content_of_ended h.ended, hcount b.lines h.lf_notMem]

theorem Whole.endsLine_content (h : b.Whole) : b.content.EndsLine := by
  rw [content_of_ended h.ended]
  exact Text.endsLine_unlines b.lines

theorem whole_empty : empty.Whole := ⟨rfl, nofun⟩

theorem whole_ofContent (h : t.EndsLine) : (ofContent t).Whole := by
  rcases h with rfl | h
  · exact whole_empty
  · obtain ⟨body, rfl⟩ := List.getLast?_eq_some_iff.1 h
    have hbody : Text.dropSuffix? [lf] (body ++ [lf]) = some body := by
      simp [Text.dropSuffix?]
    rw [ofContent, if_neg (by simp), hbody]
    exact ⟨rfl, fun l hl => Text.sep_notMem_of_mem_splitOn hl⟩

theorem length_ofContent (h : t.EndsLine) : (ofContent t).lines.length = t.count lf := by
  rw [← (whole_ofContent h).count_content, content_ofContent]

end LineBuffer

namespace Patch

/-! ## What is counted -/

/-- How many line feeds a path has in the files, less those that it had before. A path without a file
has none. -/
def gained (known : Text → Loaded) (files : List PatchedFile) (path : Text) : ℤ :=
  ((ApplyResult.content? files path).getD []).count lf - (known path).lineFeeds

/-- The line feeds that the paths of the files have gained are the added lines less the removed ones,
and one for each removal that was skipped. -/
def Reconciles (known : Text → Loaded) (edits : List FileEdit) (r : ApplyResult) : Prop :=
  ∑ path ∈ (edits.map FileEdit.path).toFinset, gained known r.files path
    = (lineCounts edits).1 - (lineCounts edits).2 + r.warnings.countP PatchWarning.isMismatch

/-- Whether a header of an old side stands right before the header of a new side with a path. -/
def startsPaired : List Token → Bool
  | ⟨_, .oldHeader _⟩ :: ⟨_, .newHeader (some _)⟩ :: _ => true
  | ⟨_, .oldHeader _⟩ :: _ => false
  | _ => true

/-- A patch in which each header of an old side stands right before the header of a new side with a
path. -/
def PairsHeaders (patch : Text) : Prop :=
  ∀ tokens, tokenize patch = .ok tokens → ∀ back ∈ tokens.tails, startsPaired back = true

/-! ## The tokens of a patch -/

section Tokens

variable {patch : Text} {tokens front back : List Token} {token : Token}

/-- Without a line for it, no token marks a missing line feed. -/
theorem ne_noNewline (htokens : tokenize patch = .ok tokens)
    (hmarks : ∀ l ∈ patchLines patch, l.head? ≠ some '\\') (hmem : token ∈ tokens) :
    token.kind ≠ .noNewline := by
  intro hkind
  obtain ⟨st, line, next, hline, hclassify⟩ := exists_line_of_mem htokens hmem
  rw [hkind] at hclassify
  exact hmarks line (List.fst_mem_of_mem_zipIdx hline)
    (head?_of_hunkLine_noNewline (hunkLine_of_classify hclassify rfl))

/-- An added line is one line. -/
theorem lf_notMem_of_add (htokens : tokenize patch = .ok tokens) {n : Nat} {text : Text}
    (hmem : ⟨n, .add text⟩ ∈ tokens) : lf ∉ text := by
  obtain ⟨st, line, next, hline, hclassify⟩ := exists_line_of_mem htokens hmem
  obtain rfl : line = '+' :: text := eq_of_hunkLine_add (hunkLine_of_classify hclassify rfl)
  exact fun hlf => lf_notMem_of_mem_patchLines (List.fst_mem_of_mem_zipIdx hline)
    (List.mem_cons_of_mem _ hlf)

/-- Only right behind the header of an old side does the reader of lines expect the other header. -/
theorem exists_newHeader_of_afterOld (htokens : tokenize patch = .ok tokens)
    (hheaders : PairsHeaders patch) (heq : tokens = front ++ token :: back)
    (hafter : (stateAfter front).afterOld = true) : ∃ path, token.kind = .newHeader (some path) := by
  rcases List.eq_nil_or_concat' front with rfl | ⟨before, last, rfl⟩
  · cases hafter
  rw [stateAfter_concat] at hafter
  obtain ⟨n, kind⟩ := last
  cases kind with
  | oldHeader path =>
    have hpaired : startsPaired (⟨n, .oldHeader path⟩ :: token :: back) = true := by
      refine hheaders tokens htokens _ ((List.mem_tails _ _).2 ⟨before, ?_⟩)
      rw [heq, List.append_assoc, List.singleton_append]
    obtain ⟨m, kind⟩ := token
    cases kind with
    | newHeader target =>
      cases target with
      | none => cases hpaired
      | some target => exact ⟨target, rfl⟩
    | _ => cases hpaired
  | _ => cases hafter

end Tokens

namespace Engine

variable {known : Text → Loaded} {e e' : Engine} {f : OpenFile} {path : Text} {n : Nat}
  {kind : TokenKind}

/-! ## Heights -/

/-- The number of line feeds of a path that is not open. -/
def closedHeight (known : Text → Loaded) (files : List PatchedFile) (path : Text) : Nat :=
  match ApplyResult.content? files path with
  | some t => t.count lf
  -- until the patch finishes the file it is as it was
  | none => (known path).lineFeeds

/-- The number of line feeds of a path, also while it is open. -/
def height (known : Text → Loaded) (e : Engine) (path : Text) : Nat :=
  match e.opened with
  | some f => if f.path = path then f.buffer.lines.length else closedHeight known e.files path
  | none => closedHeight known e.files path

theorem height_of_opened (h : e.opened = some f) (path : Text) : e.height known path
    = if f.path = path then f.buffer.lines.length else closedHeight known e.files path := by
  rw [height, h]

theorem height_of_closed (h : e.opened = none) (path : Text) :
    e.height known path = closedHeight known e.files path := by
  rw [height, h]

/-- An engine whose files have whole lines. -/
structure Whole (known : Text → Loaded) (e : Engine) : Prop where
  finished : ∀ path t, ApplyResult.content? e.files path = some t → t.EndsLine
  opened : ∀ f, e.opened = some f → f.buffer.Whole
  /-- A file that is dropped if it stays empty has nothing to lose. -/
  missing : ∀ f, e.opened = some f → f.present = false → closedHeight known e.files f.path = 0

theorem Whole.finished_flush (h : e.Whole known) {t : Text}
    (hcontent : ApplyResult.content? e.flush.files path = some t) : t.EndsLine := by
  rcases e.content?_flush_cases path with ⟨f, hopened, -, hflush⟩ | ⟨-, hflush⟩
  · cases hflush.symm.trans hcontent
    exact (h.opened f hopened).endsLine_content
  · exact h.finished path t (hflush.symm.trans hcontent)

theorem Whole.closedHeight_flush (h : e.Whole known) (path : Text) :
    closedHeight known e.flush.files path = e.height known path := by
  rcases e.content?_flush_cases path with ⟨f, hopened, hpath, hflush⟩ | ⟨hdropped, hflush⟩
  · -- the file is finished with a content of as many line feeds as it has lines
    rw [height_of_opened hopened, if_pos hpath, closedHeight, hflush]
    exact (h.opened f hopened).count_content
  rw [closedHeight, hflush, ← closedHeight]
  cases hopened : e.opened with
  | none => rw [height_of_closed hopened]
  | some f =>
    rw [height_of_opened hopened]
    split
    · rename_i hpath
      -- the file is dropped: it has no lines, and had none before
      obtain ⟨hpresent, hempty⟩ := hdropped f hopened hpath
      rw [← hpath, hempty]
      exact h.missing f hopened hpresent
    · rfl

/-- Finishing the open file changes no height. -/
theorem Whole.closed (h : e.Whole known) (hfiles : e'.files = e.flush.files)
    (hclosed : e'.opened = none) : e'.Whole known ∧ e'.height known = e.height known := by
  refine ⟨⟨fun path t hcontent => ?_, fun f hf => ?_, fun f hf => ?_⟩, funext fun path => ?_⟩
  · rw [hfiles] at hcontent
    exact h.finished_flush hcontent
  · cases hclosed.symm.trans hf
  · cases hclosed.symm.trans hf
  · rw [height_of_closed hclosed, hfiles, h.closedHeight_flush]

/-- What is known of a file is what is opened. -/
theorem exists_openLoaded {loaded : Loaded} (h : loaded.EndsLine) (e : Engine) (path : Text)
    (creating : Bool) : ∃ f, (e.openLoaded path creating loaded).opened = some f ∧ f.path = path ∧
      f.buffer.Whole ∧ f.buffer.lines.length = loaded.lineFeeds ∧
      (f.present = false → loaded.lineFeeds = 0) := by
  cases loaded with
  | content t =>
    exact ⟨_, rfl, rfl, LineBuffer.whole_ofContent h, LineBuffer.length_ofContent h, nofun⟩
  | notFound =>
    cases creating with
    | true => exact ⟨_, rfl, rfl, LineBuffer.whole_empty, rfl, nofun⟩
    | false => exact ⟨_, rfl, rfl, LineBuffer.whole_empty, rfl, fun _ => rfl⟩
  | unreadable reason => exact h.elim

/-- Opening a file changes no height. -/
theorem Whole.openLoaded (h : e.Whole known) (hclosed : e.opened = none) {loaded : Loaded}
    (hloaded : loaded.EndsLine) (hheight : closedHeight known e.files path = loaded.lineFeeds)
    (creating : Bool) : (e.openLoaded path creating loaded).Whole known ∧
      (e.openLoaded path creating loaded).height known = e.height known ∧
      ∃ f, (e.openLoaded path creating loaded).opened = some f ∧ f.path = path := by
  obtain ⟨f, hopened, rfl, hwhole, hlength, hmissing⟩ := exists_openLoaded hloaded e path creating
  have hfiles := openLoaded_files e f.path creating loaded
  refine ⟨⟨?_, ?_, ?_⟩, funext fun other => ?_, f, hopened, rfl⟩
  · rw [hfiles]
    exact h.finished
  · intro f' hf'
    cases hopened.symm.trans hf'
    exact hwhole
  · intro f' hf' hpresent
    cases hopened.symm.trans hf'
    rw [hfiles, hheight]
    exact hmissing hpresent
  · rw [height_of_opened hopened, height_of_closed hclosed, hfiles]
    split
    · rename_i hpath
      rw [← hpath, hheight, hlength]
    · rfl

theorem Whole.openFile (h : e.Whole known) (hknown : ∀ path, (known path).EndsLine) (path : Text)
    (asked : List Text) : (e.openFile (recording known) path asked).1.Whole known ∧
      (e.openFile (recording known) path asked).1.height known = e.height known ∧
      ∃ f, (e.openFile (recording known) path asked).1.opened = some f ∧ f.path = path := by
  let ready : Engine := { e.flush with creating := false, cursor := 0 }
  have hclosed : ready.opened = none := e.flush_opened
  obtain ⟨hready, hheights⟩ := h.closed (show ready.files = e.flush.files from rfl) hclosed
  rw [Engine.openFile]
  dsimp only
  -- the file is finished, or the loader answers for it
  split
  · rename_i t hcontent
    have ht : (Loaded.content t).EndsLine := h.finished_flush hcontent
    rw [← hheights]
    refine hready.openLoaded hclosed ht ?_ e.flush.creating
    rw [closedHeight, hcontent]
    rfl
  · rename_i hcontent
    rw [← hheights]
    refine hready.openLoaded hclosed (hknown path) ?_ e.flush.creating
    rw [closedHeight, hcontent]

/-! ## Lines of hunks -/

/-- A line of a hunk changes the number of lines of the open file as it is counted, but for a removal
that is skipped. -/
theorem Effect.exists_buffer (h : Effect e f n kind e') : ∃ buffer,
    e'.opened = some { f with buffer } ∧
    (buffer.lines.length : ℤ) - f.buffer.lines.length = gain kind
      + (e'.warnings.countP PatchWarning.isMismatch - e.warnings.countP PatchWarning.isMismatch) ∧
    ∀ l ∈ buffer.lines, l ∈ f.buffer.lines ∨ kind = .add l := by
  cases h with
  | deleted found lines_eq opened warnings =>
    refine ⟨_, opened, ?_, fun l hl => .inl ?_⟩
    · obtain ⟨hlt, -⟩ := List.getElem?_eq_some_iff.1 found
      rw [lines_eq, List.length_eraseIdx_of_lt hlt, warnings, gain]
      omega
    · rw [lines_eq] at hl
      exact (List.eraseIdx_sublist ..).subset hl
  | skipped found opened warnings =>
    -- the line that is counted and not removed is made up for by its warning
    refine ⟨f.buffer, opened, ?_, fun l hl => .inl hl⟩
    rw [warnings, List.countP_append, List.countP_singleton, gain]
    simp [PatchWarning.isMismatch]
  | added place_le lines_eq opened warnings =>
    refine ⟨_, opened, ?_, fun l hl => ?_⟩
    · rw [lines_eq, List.length_insertIdx_of_le_length place_le, warnings, gain]
      omega
    · rw [lines_eq, List.mem_insertIdx place_le] at hl
      exact hl.symm.imp_right fun heq => by rw [heq]
  | passed not_removal not_added opened warnings =>
    refine ⟨_, opened, ?_, fun l hl => .inl hl⟩
    have hgain : gain kind = 0 := by
      cases kind with
      | remove _ => cases not_removal
      | add _ => cases not_added
      | _ => rfl
    rw [warnings, hgain]
    dsimp only
    omega

/-- A file that is open behind a line of a hunk was open before it, and its lines are those it had
then, or the one that is added. -/
theorem Passes.exists_opened (h : Passes e n kind e') {f' : OpenFile} (hopened : e'.opened = some f') :
    ∃ f, e.opened = some f ∧ (∃ buffer, f' = { f with buffer }) ∧
      ∀ l ∈ f'.buffer.lines, l ∈ f.buffer.lines ∨ kind = .add l := by
  cases hbefore : e.opened with
  | none => cases (h.closed hbefore).1.symm.trans hopened
  | some f =>
    obtain ⟨buffer, hafter, -, hmem⟩ := (h.effect f hbefore).exists_buffer
    cases hafter.symm.trans hopened
    exact ⟨f, rfl, ⟨buffer, rfl⟩, hmem⟩

/-! ## The balance -/

/-- How many line feeds more than before the paths have. -/
def grown (known : Text → Loaded) (targets : Finset Text) (e : Engine) : ℤ :=
  ∑ path ∈ targets, ((e.height known path : ℤ) - (known path).lineFeeds)

theorem grown_congr {targets : Finset Text} (h : e'.height known = e.height known) :
    e'.grown known targets = e.grown known targets := by
  rw [grown, grown, h]

/-- An edit of the open file counts for its path alone. -/
theorem grown_edit {targets : Finset Text} (hmem : f.path ∈ targets) (hopened : e.opened = some f)
    {buffer : LineBuffer} (hopened' : e'.opened = some { f with buffer })
    (hfiles : e'.files = e.files) : e'.grown known targets
      = e.grown known targets + (buffer.lines.length - f.buffer.lines.length) := by
  have hself : e.height known f.path = f.buffer.lines.length := by
    rw [height_of_opened hopened, if_pos rfl]
  have hself' : e'.height known f.path = buffer.lines.length := by
    rw [height_of_opened hopened', if_pos rfl]
  -- the other summands are the same
  have hother : ∑ path ∈ targets.erase f.path, ((e'.height known path : ℤ) - (known path).lineFeeds)
      = ∑ path ∈ targets.erase f.path, ((e.height known path : ℤ) - (known path).lineFeeds) := by
    refine Finset.sum_congr rfl fun path hpath => ?_
    have hne : f.path ≠ path := (Finset.ne_of_mem_erase hpath).symm
    rw [height_of_opened hopened, height_of_opened hopened', if_neg hne, if_neg hne, hfiles]
  rw [grown, grown, ← Finset.add_sum_erase _ _ hmem, ← Finset.add_sum_erase targets _ hmem, hother,
    hself, hself']
  omega

/-- The engine after some tokens, and the structure of the patch up to there. -/
structure Balanced (known : Text → Loaded) (targets : Finset Text) (front : List Token) (e : Engine) :
    Prop where
  whole : e.Whole known
  opened_mem : ∀ f, e.opened = some f → f.path ∈ targets
  /-- A file is open when the last one of the structure is not deleted, but for the place between the
  two headers of a file. -/
  isSome_opened : (stateAfter front).afterOld = false → e.opened.isSome = lastKept (editsOf front)
  grown_eq : e.grown known targets
    = net (withoutDeletions (editsOf front)) + e.warnings.countP PatchWarning.isMismatch

/-- Warnings of files do not count. -/
theorem countP_isMismatch {ws : List PatchWarning} (hwarnings : e'.warnings = e.warnings ++ ws)
    (hws : ∀ w ∈ ws, w.isMismatch = false) : e'.warnings.countP PatchWarning.isMismatch
      = e.warnings.countP PatchWarning.isMismatch := by
  have hnone : ws.countP PatchWarning.isMismatch = 0 :=
    List.countP_eq_zero.2 fun w hw => by simp [hws w hw]
  rw [hwarnings, List.countP_append, hnone, Nat.add_zero]

namespace Balanced

variable {targets : Finset Text} {front : List Token}

theorem nil (known : Text → Loaded) (targets : Finset Text) : Balanced known targets [] {} where
  whole := ⟨nofun, nofun, nofun⟩
  opened_mem := nofun
  isSome_opened _ := rfl
  grown_eq := Finset.sum_eq_zero fun _ _ => sub_self _

/-- A token that leaves no file open, when the structure is not in a file that is kept. -/
theorem closed {token : Token} (h : e.Balanced known targets front) (hfiles : e'.files = e.flush.files)
    (hclosed : e'.opened = none)
    (hkept : (stateAfter (front ++ [token])).afterOld = false →
      lastKept (editsOf (front ++ [token])) = false)
    (hnet : net (withoutDeletions (editsOf (front ++ [token])))
      = net (withoutDeletions (editsOf front)))
    (hwarnings : e'.warnings.countP PatchWarning.isMismatch
      = e.warnings.countP PatchWarning.isMismatch) :
    e'.Balanced known targets (front ++ [token]) := by
  obtain ⟨hwhole, hheights⟩ := h.whole.closed hfiles hclosed
  refine ⟨hwhole, fun f hf => ?_, fun hafter => ?_, ?_⟩
  · cases hclosed.symm.trans hf
  · rw [hclosed, hkept hafter]
    rfl
  · rw [grown_congr hheights, hwarnings, hnet, h.grown_eq]

theorem oldHeader (h : e.Balanced known targets front) (n : Nat) (old : Option Text) :
    (e.oldHeader old).Balanced known targets (front ++ [⟨n, .oldHeader old⟩]) := by
  have hwarnings : (e.oldHeader old).warnings = e.warnings := e.flush_warnings
  refine h.closed rfl e.flush_opened (fun hafter => ?_) ?_ (by rw [hwarnings])
  · rw [stateAfter_concat] at hafter
    cases hafter
  · rw [editsOf_concat_oldHeader]

theorem skipDeletion (h : e.Balanced known targets front) (n : Nat) :
    e.skipDeletion.Balanced known targets (front ++ [⟨n, .newHeader none⟩]) := by
  obtain ⟨hkept, hnet⟩ := net_concat_newHeader front n none
  obtain ⟨ws, hwarnings, hws⟩ := skipDeletion_warnings e
  exact h.closed e.skipDeletion_files e.skipDeletion_opened (fun _ => hkept) hnet
    (countP_isMismatch hwarnings hws)

theorem openFile (h : e.Balanced known targets front) (hknown : ∀ path, (known path).EndsLine)
    (n : Nat) (hpath : path ∈ targets) (asked : List Text) :
    (e.openFile (recording known) path asked).1.Balanced known targets
      (front ++ [⟨n, .newHeader (some path)⟩]) := by
  obtain ⟨hwhole, hheights, f, hopened, hf⟩ := h.whole.openFile hknown path asked
  obtain ⟨hkept, hnet⟩ := net_concat_newHeader front n (some path)
  obtain ⟨ws, hwarnings, hws⟩ := openFile_warnings (recording known) e path asked
  refine ⟨hwhole, fun f' hf' => ?_, fun _ => ?_, ?_⟩
  · cases hopened.symm.trans hf'
    exact hf ▸ hpath
  · rw [hopened, hkept]
    rfl
  · rw [grown_congr hheights, countP_isMismatch hwarnings hws, hnet, h.grown_eq]

/-- A line of a hunk changes the heights as it is counted. -/
theorem line (h : e.Balanced known targets front) (hkind : isFileHeader kind = false)
    (hpasses : Passes e n kind e') (hafter : (stateAfter front).afterOld = false)
    (hline : isHunkLine kind = true → (stateAfter front).inHunk = true) (hmark : kind ≠ .noNewline)
    (hadd : ∀ t, kind = .add t → lf ∉ t) :
    e'.Balanced known targets (front ++ [⟨n, kind⟩]) := by
  obtain ⟨hkept, hnet⟩ := net_concat hkind hline n
  have hsome := h.isSome_opened hafter
  cases hopened : e.opened with
  | none =>
    -- a line that is dropped stands in no file, or in one that is deleted
    obtain ⟨hopened', hwarnings⟩ := hpasses.closed hopened
    rw [hopened, Option.isSome_none] at hsome
    refine h.closed ?_ hopened' (fun _ => hkept.trans hsome.symm) ?_ (by rw [hwarnings])
    · rw [flush_of_opened_eq_none hopened, hpasses.files]
    · rw [hnet, ← hsome, if_neg Bool.false_ne_true, add_zero]
  | some f =>
    obtain ⟨buffer, hopened', hlength, hlines⟩ := (hpasses.effect f hopened).exists_buffer
    -- the file keeps its end, as no token marks a missing line feed
    have hended := hpasses.ended hmark
    rw [ended?, ended?, hopened, hopened'] at hended
    have hbuffer : buffer.Whole := by
      refine ⟨(Option.some.inj hended).trans (h.whole.opened f hopened).ended, fun l hl => ?_⟩
      rcases hlines l hl with hold | hnew
      · exact (h.whole.opened f hopened).lf_notMem l hold
      · exact hadd l hnew
    rw [hopened, Option.isSome_some] at hsome
    refine ⟨⟨hpasses.files ▸ h.whole.finished, fun g hg => ?_, fun g hg hpresent => ?_⟩, fun g hg => ?_,
      fun _ => ?_, ?_⟩
    · cases hopened'.symm.trans hg
      exact hbuffer
    · cases hopened'.symm.trans hg
      rw [hpasses.files]
      exact h.whole.missing f hopened hpresent
    · cases hopened'.symm.trans hg
      exact h.opened_mem f hopened
    · rw [hopened', hkept, ← hsome]
      rfl
    · rw [grown_edit (h.opened_mem f hopened) hopened hopened' hpasses.files, hlength, hnet, ← hsome,
        if_pos rfl, h.grown_eq]
      omega

end Balanced

/-- The structure and the engine keep step over a run. -/
theorem balanced_of_run {patch : Text} {tokens : List Token} (htokens : tokenize patch = .ok tokens)
    (hmarks : ∀ l ∈ patchLines patch, l.head? ≠ some '\\') (hheaders : PairsHeaders patch)
    (hknown : ∀ path, (known path).EndsLine) {targets : Finset Text}
    (htargets : ∀ n path, ⟨n, .newHeader (some path)⟩ ∈ tokens → path ∈ targets) {asked : List Text}
    (hrun : run .word false (recording known) tokens {} [] = (.ok e, asked)) :
    e.Balanced known targets tokens := by
  refine run_induction (P := fun front e _ => e.Balanced known targets front) (.nil known targets) ?_
    hrun
  intro front token back e₁ s₁ e₂ s₂ heq _ h hreads
  have hmem : token ∈ tokens := heq ▸ List.mem_append_right front (List.mem_cons_self ..)
  cases hreads with
  | oldHeader n path => exact h.oldHeader n path
  | deletion n => exact h.skipDeletion n
  | target n path opens =>
    have hopen := h.openFile hknown n (htargets n path hmem) s₁
    rwa [opens] at hopen
  | @line _ n kind not_header passes =>
    -- behind the header of an old side there is the other header, and no line of a hunk
    have hafter : (stateAfter front).afterOld = false := by
      refine Bool.eq_false_iff.2 fun hafter => ?_
      obtain ⟨path, rfl⟩ := exists_newHeader_of_afterOld htokens hheaders heq hafter
      cases not_header
    refine h.line not_header passes hafter (fun hline => ?_) (ne_noNewline htokens hmarks hmem) ?_
    · exact inHunk_of_inHunks (heq ▸ inHunks_of_tokenizeFrom htokens) hline
    · rintro t rfl
      exact lf_notMem_of_add htokens hmem

end Engine

/-! ## Patches -/

/-- A loader that answers by the path alone can as well be one that records. -/
theorem exists_apply_recording {σ : Type} {load : σ → Text → Loaded × σ} {known : Text → Loaded}
    (hanswers : ∀ s path, (load s path).1 = known path) {strict : Bool} {patch : Text} {s s' : σ}
    {r : ApplyResult} (h : apply strict load patch s = (.ok r, s')) :
    ∃ asked, apply strict (recording known) patch [] = (.ok r, asked) := by
  have hagrees : Agrees (fun _ _ => True) (apply strict load patch s)
      (apply strict (recording known) patch []) :=
    apply_agrees (fun path s _ _ => ⟨hanswers s path, trivial⟩) strict patch trivial
  rw [h] at hagrees
  exact ⟨_, Prod.ext hagrees.eq.symm rfl⟩

/-- When a patch is applied in the tolerant mode to files of whole lines, what the files gain is what
the patch counts, but for the removals that are skipped. The files that the patch deletes are left
out. -/
theorem apply_reconciles {σ : Type} {load : σ → Text → Loaded × σ} {known : Text → Loaded}
    {patch : Text} {s s' : σ} {r : ApplyResult}
    (hmarks : ∀ l ∈ patchLines patch, l.head? ≠ some '\\') (hheaders : PairsHeaders patch)
    (hanswers : ∀ s path, (load s path).1 = known path) (hknown : ∀ path, (known path).EndsLine)
    (h : apply false load patch s = (.ok r, s')) :
    ∃ es, edits patch = .ok es ∧ Reconciles known (withoutDeletions es) r := by
  obtain ⟨asked, h⟩ := exists_apply_recording hanswers h
  obtain ⟨tokens, htokens⟩ := exists_tokens_of_apply h
  obtain ⟨e, hrun, rfl⟩ := exists_run_of_apply htokens h
  refine ⟨editsOf tokens, edits_of_tokenize htokens, ?_⟩
  let targets := ((withoutDeletions (editsOf tokens)).map FileEdit.path).toFinset
  have hmem : ∀ path, path ∈ targets ↔ ∃ n, ⟨n, .newHeader (some path)⟩ ∈ tokens := by
    intro path
    rw [List.mem_toFinset, mem_paths_withoutDeletions]
  have hbalanced : e.Balanced known targets tokens :=
    Engine.balanced_of_run htokens hmarks hheaders hknown (fun n path hn => (hmem path).2 ⟨n, hn⟩) hrun
  -- a target without a file was not there before either
  have hgained : ∀ path ∈ targets, gained known e.flush.files path
      = (e.height known path : ℤ) - (known path).lineFeeds := by
    intro path hpath
    rw [← hbalanced.whole.closedHeight_flush, gained, Engine.closedHeight]
    cases hcontent : ApplyResult.content? e.flush.files path with
    | some t => rfl
    | none =>
      obtain ⟨n, hn⟩ := (hmem path).1 hpath
      cases hloaded : known path with
      | content t =>
        have hkept := (Engine.keeps_of_run hrun hn hloaded).flush
        obtain ⟨content, hsome⟩ := exists_content?_of_mem hkept
        cases hcontent.symm.trans hsome
      | notFound => rfl
      | unreadable reason => rfl
  rw [Reconciles, Engine.result, Engine.flush_warnings]
  exact (Finset.sum_congr rfl hgained).trans hbalanced.grown_eq

/-- A loader that knows one file. -/
def wholeFile (path : Text) : Loaded :=
  if path = ['p'] then .content "a\nb\n".toList else .notFound

theorem endsLine_wholeFile (path : Text) : (wholeFile path).EndsLine := by
  rw [wholeFile]
  split
  · exact .inr rfl
  · trivial

/-- A patch with a deletion, a file in two blocks, a missing file that gets no line, and a new one. -/
def sampleCounts : Text :=
  "+++ /dev/null\n@@ -1 +0,0 @@\n-y\n--- a/p\n+++ b/p\n@@ -1 +1 @@\n-a\n+c\n+d\n".toList ++
    "--- a/m\n+++ b/m\n@@ -1 +0,0 @@\n-z\n--- /dev/null\n+++ b/n\n@@ -0,0 +7 @@\n+w\n".toList ++
    "--- a/p\n+++ b/p\n@@ -9 +9 @@\n-q\n+x\n".toList

/-- Whether headers are paired can be read off the tokens. -/
theorem pairsHeaders_of_all {patch : Text}
    (h : (tokenize patch).toOption.all (fun tokens => tokens.tails.all startsPaired) = true) :
    PairsHeaders patch := by
  intro tokens htokens back hback
  rw [htokens] at h
  exact List.all_eq_true.1 h back hback

/-- Two removals are skipped, and the file that gets no line is none of the files. -/
theorem apply_reconciles_sample :
    ∃ es, edits sampleCounts = .ok es ∧ Reconciles wholeFile (withoutDeletions es)
      ⟨[⟨['p'], "c\nd\nb\nx\n".toList⟩, ⟨['n'], "w\n".toList⟩],
        [.fileNotFound ['m'], .removalMismatch ['m'] 13 ['z'] none,
          .removalMismatch ['p'] 21 ['q'] none]⟩ := by
  have h : apply false (recording wholeFile) sampleCounts []
      = (.ok ⟨[⟨['p'], "c\nd\nb\nx\n".toList⟩, ⟨['n'], "w\n".toList⟩],
        [.fileNotFound ['m'], .removalMismatch ['m'] 13 ['z'] none,
          .removalMismatch ['p'] 21 ['q'] none]⟩, [['p'], ['m'], ['n']]) := by decide +kernel
  exact apply_reconciles (by decide +kernel) (pairsHeaders_of_all (by decide +kernel))
    (fun _ _ => rfl) endsLine_wholeFile h

/-- A deletion without the header of an old side. -/
def sampleDeletion : Text := "+++ /dev/null\n@@ -1 +0,0 @@\n-x\n".toList

/-- With the files to delete, the line counts are not what happens: the removal is counted, and it is
neither applied nor warned of. -/
theorem apply_reconciles_deletion :
    (∀ l ∈ patchLines sampleDeletion, l.head? ≠ some '\\') ∧ PairsHeaders sampleDeletion ∧
      (∀ path, (wholeFile path).EndsLine) ∧
      apply false (recording wholeFile) sampleDeletion [] = (.ok {}, []) ∧
      edits sampleDeletion = .ok [⟨[], true, true, [⟨0, [['x']], []⟩]⟩] ∧
      ¬ Reconciles wholeFile [⟨[], true, true, [⟨0, [['x']], []⟩]⟩] {} := by
  refine ⟨by decide +kernel, pairsHeaders_of_all (by decide +kernel), endsLine_wholeFile,
    by decide +kernel, by decide +kernel, ?_⟩
  rw [Reconciles]
  decide +kernel

end Patch

end Mend
