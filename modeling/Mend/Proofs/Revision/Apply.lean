import Mend.Proofs.Patch.Files
import Mend.Proofs.Patch.Run
import Mend.Proofs.Revision.Ending
import Mend.Proofs.Revision.Tokens

/-!
# Applying the patch of a revision

The patch of well-formed revisions, applied to their old sides, gives their new sides
(`Revision.apply_patch`), in strict mode and in tolerant mode, without a warning and in the order of
the revisions.

The proof follows the open file as a buffer that is cut at the cursor (`Patch.Engine.editing`): the
lines in front of the cut are lines of the new side, the lines behind it are lines of the old side.
One edit moves its old lines away from behind the cut and its new lines to the front
(`Revision.run_edit`); a hunk header moves the gap to the front.
-/

namespace Mend

namespace Patch

namespace Engine

/-- The engine while it edits a file: `front` stands before the cursor and `back` after it. -/
def editing (e : Engine) (path : Text) (front back : List Text) (ended : Bool) (last : LastLine) :
    Engine :=
  { e with
    opened := some ⟨path, ⟨front ++ back, ended⟩, true⟩
    cursor := front.length
    last := last }

section Steps

variable (rule : CursorRule) (strict : Bool) (e : Engine) (path : Text) (front back : List Text)
  (ended : Bool) (last : LastLine) (n : Nat)

theorem step_remove (t : Text) :
    (e.editing path front (t :: back) ended last).step rule strict ⟨n, .remove t⟩
      = .ok (e.editing path front back ended .removed) := by
  have hfound : (front ++ t :: back)[front.length]? = some t := by simp
  have herase : (front ++ t :: back).eraseIdx front.length = front ++ back := by
    rw [List.eraseIdx_append_of_length_le (Nat.le_refl _), Nat.sub_self, List.eraseIdx_zero]
    rfl
  simp only [step, editing, removeLine, hfound, herase, if_true]

theorem step_add (t : Text) :
    (e.editing path front back ended last).step rule strict ⟨n, .add t⟩
      = .ok (e.editing path (front ++ [t]) back ended .added) := by
  simp [step, editing, addLine, insertIdx_length_append]

theorem step_keep (t : Text) (hrule : rule.advance front.length = front.length + 1) :
    (e.editing path front (t :: back) ended last).step rule strict ⟨n, .context t⟩
      = .ok (e.editing path (front ++ [t]) back ended .kept) := by
  simp [step, editing, keepLine, hrule]

/-- Finishing the file puts its buffer among the files. -/
theorem flush_editing : (e.editing path front back ended last).flush
    = { e.editing path front back ended last with
        opened := none
        files := ApplyResult.upsert path (LineBuffer.content ⟨front ++ back, ended⟩) e.files } := by
  simp [flush, editing]

theorem step_mark : (e.editing path front back ended last).step rule strict ⟨n, .noNewline⟩
    = .ok (e.editing path front back (last = .removed) last) := rfl

/-- A hunk header moves the cursor over the lines that are left alone. -/
theorem step_hunk (gap : List Text) {header : HunkHeader}
    (hcursor : header.cursor = front.length + gap.length) :
    (e.editing path front (gap ++ back) ended last).step rule strict ⟨n, .hunk header⟩
      = .ok (e.editing path (front ++ gap) back ended .kept) := by
  simp [step, editing, hcursor]

end Steps

end Engine

end Patch

namespace Revision

open Patch

/-! ## Edits and hunks -/

/-- The kind of line that a missing line feed after an edit refers to. -/
def Edit.last : Edit → LastLine
  | keep _ => .kept
  | remove _ => .removed
  | add _ => .added

section Run

variable {σ : Type} {rule : CursorRule} (strict : Bool) (load : σ → Text → Loaded × σ)
  (eng : Engine) (path : Text)

/-- The row of an edit moves its line from behind the cursor or to the front of it. -/
theorem step_edit {front : List Text} (e : Edit)
    (hrule : e.new ≠ [] → rule.advance front.length = front.length + 1) (back : List Text)
    (ended : Bool) (last : LastLine) (n : Nat) :
    (eng.editing path front (e.old.map FileLine.text ++ back) ended last).step rule strict
        ⟨n, e.kind⟩
      = .ok (eng.editing path (front ++ e.new.map FileLine.text) back ended e.last) := by
  cases e with
  | keep l =>
    have hadvance := hrule (List.cons_ne_nil l [])
    exact Engine.step_keep rule strict eng path front back ended last n l.text hadvance
  | remove l =>
    simpa [Edit.old, Edit.new, Edit.kind, Edit.last] using
      Engine.step_remove rule strict eng path front back ended last n l.text
  | add l => exact Engine.step_add rule strict eng path front back ended last n l.text

/-- The rows of an edit, with the mark of a missing line feed. -/
theorem run_edit {front : List Text} (e : Edit)
    (hrule : e.new ≠ [] → rule.advance front.length = front.length + 1) (back : List Text)
    (ended : Bool) (last : LastLine) (n : Nat) (ts : List Token) (s : σ) :
    Engine.run rule strict load (numbered n e.kinds ++ ts)
        (eng.editing path front (e.old.map FileLine.text ++ back) ended last) s
      = Engine.run rule strict load ts
        (eng.editing path (front ++ e.new.map FileLine.text) back (e.ends ended) e.last) s := by
  have hkind : ∀ p, e.kind ≠ .newHeader (some p) := by cases e <;> simp [Edit.kind]
  have hstep := step_edit strict eng path e hrule back ended last n
  cases hl : e.line.ended with
  | true =>
    simp only [Edit.kinds, hl, if_true, numbered, List.cons_append, List.nil_append]
    rw [Engine.run_cons load hkind hstep, Edit.ends_of_ended hl]
  | false =>
    have hends : e.ends ended = decide (e.last = .removed) := by
      cases e <;> simp_all [Edit.ends, Edit.isRemoval, Edit.last]
    -- the mark comes right after the row, so it sees what the row did
    simp only [Edit.kinds, hl, Bool.false_eq_true, if_false, numbered, List.cons_append,
      List.nil_append]
    rw [Engine.run_cons load hkind hstep,
      Engine.run_cons load (by simp) (Engine.step_mark rule strict eng path _ _ _ _ _), hends]

/-- The rule moves cursors exactly before `bound`. -/
def ExactBefore (rule : CursorRule) (bound : Nat) : Prop :=
  ∀ c, c < bound → rule.advance c = c + 1

/-- The rows of edits in a row. -/
theorem run_edits {bound : Nat} (hrule : ExactBefore rule bound) (es : List Edit)
    (front back : List Text) (hbound : front.length + (es.flatMap Edit.new).length ≤ bound)
    (ended : Bool) (last : LastLine) (n : Nat) (ts : List Token) (s : σ) :
    ∃ last', Engine.run rule strict load (numbered n (es.flatMap Edit.kinds) ++ ts)
        (eng.editing path front ((es.flatMap Edit.old).map FileLine.text ++ back) ended last) s
      = Engine.run rule strict load ts
        (eng.editing path (front ++ (es.flatMap Edit.new).map FileLine.text) back
          (es.foldl Edit.ends ended) last') s := by
  -- the lines of the new side that are done pile up in front of the cursor
  induction es generalizing front ended last n with
  | nil => exact ⟨last, by simp [numbered]⟩
  | cons e es ih =>
    simp only [List.flatMap_cons, List.length_append] at hbound
    -- the cursor only moves over lines that the new side still has
    have hexact : e.new ≠ [] → rule.advance front.length = front.length + 1 := by
      intro hne
      have := List.length_pos_iff.2 hne
      exact hrule _ (by omega)
    have hrest : (front ++ e.new.map FileLine.text).length + (es.flatMap Edit.new).length
        ≤ bound := by
      simp only [List.length_append, List.length_map]
      omega
    obtain ⟨last', hih⟩ := ih _ hrest (e.ends ended) e.last (n + e.kinds.length)
    refine ⟨last', ?_⟩
    simp only [List.flatMap_cons, List.map_append, List.append_assoc, numbered_append,
      List.foldl_cons] at hih ⊢
    rw [run_edit strict load eng path e hexact, hih]

/-- A hunk header puts the cursor behind the lines that the hunk leaves alone. -/
theorem Hunk.cursor_numbers {h : Hunk} {before : Nat}
    (hnew : range? h.newRange = some (h.newStart before, h.new.length)) :
    h.numbers.cursor = before := by
  by_cases hempty : h.new.length = 0
  · simp [HunkHeader.cursor, numbers, hnew, newStart, hempty]
  · simp [HunkHeader.cursor, numbers, hnew, newStart, hempty]

/-- The rows of hunks take the old side to the new side. -/
theorem run_hunks {bound : Nat} (hrule : ExactBefore rule bound) (hs : List Hunk)
    (front back : List Text) (hnum : Numbered front.length hs)
    (hbound : front.length + (hs.flatMap fun h => h.gap ++ h.new).length ≤ bound)
    (ended : Bool) (last : LastLine) (n : Nat) (ts : List Token) (s : σ) :
    ∃ front' back' last', Engine.run rule strict load (numbered n (hs.flatMap Hunk.kinds) ++ ts)
        (eng.editing path front
          ((hs.flatMap fun h => h.gap ++ h.old).map FileLine.text ++ back) ended last) s
      = Engine.run rule strict load ts
        (eng.editing path front' back' ((hs.flatMap Hunk.edits).foldl Edit.ends ended) last') s ∧
      front' ++ back' = front ++ (hs.flatMap fun h => h.gap ++ h.new).map FileLine.text ++ back := by
  induction hs generalizing front ended last n with
  | nil => exact ⟨front, back, last, by simp [numbered], by simp⟩
  | cons h hs ih =>
    obtain ⟨-, hnew, hnum⟩ := hnum
    simp only [List.flatMap_cons, List.length_append] at hbound
    have hcursor : h.numbers.cursor = front.length + (h.gap.map FileLine.text).length := by
      rw [List.length_map]
      exact Hunk.cursor_numbers hnew
    have hbound' : (front ++ h.gap.map FileLine.text).length + h.new.length ≤ bound := by
      simp only [List.length_append, List.length_map]
      omega
    have hbound'' : (front ++ h.gap.map FileLine.text ++ h.new.map FileLine.text).length
        + (hs.flatMap fun h => h.gap ++ h.new).length ≤ bound := by
      simp only [List.length_append, List.length_map]
      omega
    have hlength : (front ++ h.gap.map FileLine.text ++ h.new.map FileLine.text).length
        = front.length + h.gap.length + h.new.length := by simp [Nat.add_assoc]
    -- the header moves the cursor over the gap, then the edits are made there
    have hheader := Engine.step_hunk rule strict eng path front
      (h.old.map FileLine.text ++ ((hs.flatMap fun h => h.gap ++ h.old).map FileLine.text ++ back))
      ended last n (h.gap.map FileLine.text) hcursor
    obtain ⟨last₁, hedits⟩ := run_edits strict load eng path hrule h.edits _
      ((hs.flatMap fun h => h.gap ++ h.old).map FileLine.text ++ back) hbound' ended .kept (n + 1)
      (numbered (n + h.kinds.length) (hs.flatMap Hunk.kinds) ++ ts) s
    obtain ⟨front', back', last', hhunks, hlines⟩ := ih _ (hlength ▸ hnum) hbound''
      (h.edits.foldl Edit.ends ended) last₁ (n + h.kinds.length)
    refine ⟨front', back', last', ?_, ?_⟩
    · rw [List.flatMap_cons, List.flatMap_cons, List.flatMap_cons, numbered_append,
        List.append_assoc, List.foldl_append, ← hhunks]
      simp only [List.map_append, List.append_assoc] at hheader hedits ⊢
      rw [Hunk.kinds, numbered, List.cons_append, Engine.run_cons load (by simp) hheader]
      exact hedits
    · rw [hlines]
      simp

/-! ## Files -/

/-- The loader supplies the old side: nothing for a file that is new, its content otherwise. -/
def Supplies (r : Revision) : Prop :=
  ∀ s, (load s r.path).1
    = if r.creates then .notFound else .content (FileLine.content r.oldLines)

/-- The engine between the headers of a revision and its first hunk, apart from the open file. -/
def ready (e : Engine) (r : Revision) : Engine :=
  { e.flush with creating := false, oldPath := r.oldPath }

variable {load}

/-- The two headers open the file with the lines of the old side. -/
theorem openFile_oldHeader {r : Revision} (h : r.WellFormed) (hload : Supplies load r) {e : Engine}
    (hfresh : ApplyResult.Fresh e.flush.files r.path) (s : σ) :
    (e.oldHeader r.oldPath).openFile load r.path s
      = ((ready e r).editing r.path [] (r.oldLines.map FileLine.text)
          (FileLine.endedLast r.oldLines) e.flush.last, (load s r.path).2) := by
  have hflush : (e.oldHeader r.oldPath).flush = e.oldHeader r.oldPath :=
    Engine.flush_of_opened_eq_none (Engine.flush_opened e)
  have hfiles : ApplyResult.content? (e.oldHeader r.oldPath).files r.path = none :=
    ApplyResult.content?_of_fresh hfresh
  have hknown := hload s
  -- the path is fresh, so the loader is asked
  rw [Engine.openFile, hflush]
  simp only [hfiles]
  cases hc : r.creates with
  | true =>
    rw [hc, if_pos rfl] at hknown
    rw [hknown]
    simp [Engine.openLoaded, Engine.oldHeader, ready, Engine.editing, oldPath, hc,
      h.old_of_creates hc, LineBuffer.empty]
  | false =>
    rw [hc, if_neg Bool.false_ne_true] at hknown
    rw [hknown]
    simp [Engine.openLoaded, Engine.oldHeader, ready, Engine.editing, oldPath, hc,
      FileLine.ofContent_content h.old_side]

/-- The file that a revision leaves. -/
def patched (r : Revision) : PatchedFile := ⟨r.path, FileLine.content r.newLines⟩

/-- The rows of a revision add its new side to the finished files. -/
theorem run_revision {r : Revision} (h : r.WellFormed) (hload : Supplies load r)
    (hrule : ExactBefore rule (2 ^ 64 - 1)) {e : Engine}
    (hfresh : ApplyResult.Fresh e.flush.files r.path) (n : Nat) (ts : List Token) (s : σ) :
    ∃ e' s', Engine.run rule strict load (numbered n r.kinds ++ ts) e s
        = Engine.run rule strict load ts e' s' ∧
      e'.flush.files = e.flush.files ++ [r.patched] ∧ e'.flush.warnings = e.flush.warnings := by
  have hbound : ([] : List Text).length + (r.hunks.flatMap fun h => h.gap ++ h.new).length
      ≤ 2 ^ 64 - 1 := by
    have hfits := h.fits
    rw [newLines, List.length_append] at hfits
    rw [List.length_nil]
    omega
  -- nothing is in front of the cursor before the first hunk
  obtain ⟨front, back, last, hrun, hlines⟩ := run_hunks strict load (ready e r) r.path hrule
    r.hunks [] (r.rest.map FileLine.text) h.numbered hbound (FileLine.endedLast r.oldLines)
    e.flush.last (n + 2) ts (load s r.path).2
  have hold : (r.hunks.flatMap fun h => h.gap ++ h.old).map FileLine.text
      ++ r.rest.map FileLine.text = r.oldLines.map FileLine.text := by
    rw [oldLines, List.map_append]
  have hnew : front ++ back = r.newLines.map FileLine.text := by
    rw [hlines, newLines, List.map_append, List.nil_append]
  have hends : (r.hunks.flatMap Hunk.edits).foldl Edit.ends (FileLine.endedLast r.oldLines)
      = FileLine.endedLast r.newLines := endedLast_newLines h
  rw [hold, hends] at hrun
  refine ⟨(ready e r).editing r.path front back (FileLine.endedLast r.newLines) last,
    (load s r.path).2, ?_, ?_, ?_⟩
  · have hheader : e.step rule strict ⟨n, .oldHeader r.oldPath⟩ = .ok (e.oldHeader r.oldPath) := rfl
    rw [kinds, numbered, numbered, List.cons_append, List.cons_append,
      Engine.run_cons load (by simp) hheader, Engine.run, openFile_oldHeader h hload hfresh]
    exact hrun
  · rw [Engine.flush_editing, hnew, FileLine.content_buffer h.new_side.ended_of_later]
    exact ApplyResult.upsert_of_fresh hfresh _
  · rw [Engine.flush_editing]
    rfl

/-- The rows of revisions of different files add their new sides to the finished files. -/
theorem run_revisions (hrule : ExactBefore rule (2 ^ 64 - 1)) {rs : List Revision}
    (h : ∀ r ∈ rs, r.WellFormed) (hload : ∀ r ∈ rs, Supplies load r)
    (hpaths : (rs.map Revision.path).Nodup) {e : Engine}
    (hfresh : ∀ r ∈ rs, ApplyResult.Fresh e.flush.files r.path) (n : Nat) (s : σ) :
    ∃ e' s', Engine.run rule strict load (numbered n (rs.flatMap kinds)) e s = (.ok e', s') ∧
      e'.flush.files = e.flush.files ++ rs.map patched ∧
      e'.flush.warnings = e.flush.warnings := by
  induction rs generalizing e n s with
  | nil => exact ⟨e, s, rfl, by simp, rfl⟩
  | cons r rs ih =>
    rw [List.map_cons, List.nodup_cons] at hpaths
    obtain ⟨hnotMem, hpaths⟩ := hpaths
    obtain ⟨e₁, s₁, hrun₁, hfiles₁, hwarnings₁⟩ := run_revision strict
      (h r (List.mem_cons_self ..)) (hload r (List.mem_cons_self ..)) hrule
      (hfresh r (List.mem_cons_self ..)) n (numbered (n + r.kinds.length) (rs.flatMap kinds)) s
    have hfresh₁ : ∀ r' ∈ rs, ApplyResult.Fresh e₁.flush.files r'.path := by
      intro r' hr' f hf
      rw [hfiles₁] at hf
      rcases List.mem_append.1 hf with hf | hf
      · exact hfresh r' (List.mem_cons_of_mem _ hr') f hf
      · obtain rfl : f = r.patched := by simpa using hf
        exact fun heq => hnotMem (List.mem_map.2 ⟨r', hr', heq.symm⟩)
    obtain ⟨e', s', hrun, hfiles, hwarnings⟩ := ih
      (fun r' hr' => h r' (List.mem_cons_of_mem _ hr'))
      (fun r' hr' => hload r' (List.mem_cons_of_mem _ hr')) hpaths hfresh₁
      (n + r.kinds.length) s₁
    refine ⟨e', s', ?_, ?_, ?_⟩
    · rw [List.flatMap_cons, numbered_append, hrun₁, hrun]
    · rw [hfiles, hfiles₁, List.map_cons, List.append_assoc, List.singleton_append]
    · rw [hwarnings, hwarnings₁]

end Run

/-! ## Patches -/

theorem exactBefore_word : ExactBefore .word (2 ^ 64 - 1) := by
  intro c hc
  simp only [CursorRule.word, CursorRule.top]
  omega

/-- The empty patch has one line, which is no header. -/
theorem tokenize_nil : tokenize [] = .ok [⟨1, .other⟩] := by
  decide +kernel

/-- The patch of well-formed revisions is applied with any cursor that moves exactly where files
have lines. -/
theorem applyWith_patch {σ : Type} {rule : CursorRule} (hrule : ExactBefore rule (2 ^ 64 - 1))
    (strict : Bool) {load : σ → Text → Loaded × σ} {rs : List Revision}
    (h : ∀ r ∈ rs, r.WellFormed) (hload : ∀ r ∈ rs, Supplies load r)
    (hpaths : (rs.map path).Nodup) (s : σ) :
    (applyWith rule strict load (patch rs) s).1 = .ok ⟨rs.map patched, []⟩ := by
  cases rs with
  | nil =>
    rw [applyWith, patch, List.flatMap_nil, Text.unlines_nil, tokenize_nil]
    rfl
  | cons r rs =>
    -- no file is finished before the first row
    have hfresh : ∀ r' ∈ r :: rs, ApplyResult.Fresh ({} : Engine).flush.files r'.path :=
      fun _ _ f hf => absurd hf (List.not_mem_nil)
    obtain ⟨e, s', hrun, hfiles, hwarnings⟩ :=
      run_revisions strict hrule h hload hpaths hfresh 1 s
    rw [applyWith, tokenize_patch (List.cons_ne_nil r rs) h]
    simp only [hrun, Engine.result, hfiles, hwarnings]
    rfl

/-- The patch of well-formed revisions of different files applies without a warning, in strict mode
and in tolerant mode, and gives the new side of each revision in their order. -/
theorem apply_patch {σ : Type} (strict : Bool) {load : σ → Text → Loaded × σ} {rs : List Revision}
    (h : ∀ r ∈ rs, r.WellFormed) (hload : ∀ r ∈ rs, Supplies load r)
    (hpaths : (rs.map path).Nodup) (s : σ) :
    (apply strict load (patch rs) s).1 = .ok ⟨rs.map patched, []⟩ := by
  -- a cursor of 64 bits stops only behind every line of a new side
  have hrule := exactBefore_word
  rw [apply]
  exact applyWith_patch hrule strict h hload hpaths s

/-- A change of an unterminated file and a new file. -/
def sample : List Revision :=
  [⟨"a.txt".toList, false,
    [⟨[⟨['x'], true⟩], ['2'], ['2'], [.remove ⟨['y'], true⟩, .add ⟨['z'], true⟩]⟩,
      ⟨[⟨['u'], true⟩], ['4', ',', '1'], ['3', ',', '0'], [.remove ⟨['v'], false⟩]⟩], []⟩,
    ⟨"b.txt".toList, true, [⟨[], ['0', ',', '0'], ['1'], [.add ⟨['w'], false⟩]⟩], []⟩]

/-- A loader that knows one file. -/
def single (path content : Text) (s : Unit) (asked : Text) : Loaded × Unit :=
  (if asked = path then .content content else .notFound, s)

theorem single_self (path content : Text) (s : Unit) :
    (single path content s path).1 = .content content := by
  rw [single, if_pos rfl]

theorem apply_patch_sample :
    (apply true (single "a.txt".toList "x\ny\nu\nv".toList) (patch sample) ()).1
      = .ok ⟨[⟨"a.txt".toList, "x\nz\nu\n".toList⟩, ⟨"b.txt".toList, ['w']⟩], []⟩ := by
  have hload : ∀ r ∈ sample, (single "a.txt".toList "x\ny\nu\nv".toList () r.path).1
      = if r.creates then .notFound else .content (FileLine.content r.oldLines) := by
    decide +kernel
  exact apply_patch true (by decide +kernel) (fun r hr _ => hload r hr) (by decide) ()

/-- Two hunks without a line between them, of which the first one adds an unterminated line and the
second one removes one. -/
def reopened : Revision :=
  ⟨['p'], false,
    [⟨[], ['1', ',', '0'], ['1', ',', '1'], [.add ⟨['b'], false⟩]⟩,
      ⟨[], ['1', ',', '1'], ['1', ',', '0'], [.remove ⟨['a'], false⟩]⟩], []⟩

/-- A removed and an added line that read as the headers of a file. -/
def lookAlike : Revision :=
  ⟨['p'], false,
    [⟨[], ['1'], ['1'],
      [.remove ⟨['-', '-', ' ', 'x'], true⟩, .add ⟨['+', '+', ' ', 'y'], true⟩]⟩], []⟩

/-- Proper sides, right numbers and removed lines before added lines in each hunk are not enough:
the second hunk may give the new side its line feed back, and two rows may name another file. -/
theorem apply_patch_misread :
    (∀ r ∈ [reopened, lookAlike], r.Consistent ∧
      ∀ h ∈ r.hunks, h.edits.IsChain fun a b => a.addsThenRemoves b = false) ∧
    reopened.patched = ⟨['p'], ['b']⟩ ∧
    (apply true (single ['p'] ['a']) (patch [reopened]) ()).1
      = .ok ⟨[⟨['p'], ['b', '\n']⟩], []⟩ ∧
    lookAlike.patched = ⟨['p'], "++ y\n".toList⟩ ∧
    (apply true (single ['p'] "-- x\n".toList) (patch [lookAlike]) ()).1
      = .ok ⟨[⟨['p'], "-- x\n".toList⟩], [.fileNotFound ['y']]⟩ := by
  decide +kernel

end Revision

end Mend
