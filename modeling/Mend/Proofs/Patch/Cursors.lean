import Mathlib.Data.List.Infix
import Mend.Proofs.Patch.Lines
import Mend.Proofs.Patch.Reads

/-!
# Cursors of 64 bits

A patch says itself where its hunks start, so its cursors can be as large as numbers of 64 bits, and
each context line moves them on. They stop at the greatest one, `CursorRule.top`. While no file has
as many lines as that, nobody can tell (`Patch.apply_unbounded`): a patch does the same with cursors
that go on without bound, and lines are deleted and added at places that the file has.

Once a cursor has stopped, the two engines differ. Where one stands is what the other one shows when
its cursor is stopped (`Patch.Engine.clamp`), and this is so before and after every token, because
past the end of a file all cursors are alike.
-/

namespace Mend

namespace Patch

/-! ## Numbers of hunk headers -/

theorem lt_of_number? {t : Text} {n : Nat} (h : number? t = some n) : n < 2 ^ 64 := by
  rw [number?] at h
  split at h
  · split at h
    · rename_i hlt
      cases h
      exact hlt
    · cases h
  · cases h

theorem fst_lt_of_range? {t : Text} {range : Nat × Nat} (h : range? t = some range) :
    range.1 < 2 ^ 64 := by
  rw [range?] at h
  split at h
  · obtain ⟨start, hstart, h⟩ := Option.bind_eq_some_iff.1 h
    obtain ⟨length, -, h⟩ := Option.bind_eq_some_iff.1 h
    cases h
    exact lt_of_number? hstart
  · obtain ⟨start, hstart, rfl⟩ := Option.map_eq_some_iff.1 h
    exact lt_of_number? hstart

/-- The cursor of a header is one of 64 bits. -/
theorem cursor_le_of_hunkHeader? {line : Text} {header : HunkHeader}
    (h : hunkHeader? line = some header) : header.cursor ≤ CursorRule.top := by
  obtain ⟨⟨old, new⟩, -, h⟩ := Option.bind_eq_some_iff.1 h
  obtain ⟨⟨oldStart, oldLength⟩, -, h⟩ := Option.bind_eq_some_iff.1 h
  obtain ⟨⟨newStart, newLength⟩, hnew, h⟩ := Option.bind_eq_some_iff.1 h
  cases h
  have hlt : newStart < 2 ^ 64 := fst_lt_of_range? hnew
  rw [HunkHeader.cursor, CursorRule.top]
  dsimp only
  split <;> omega

theorem hunkHeader?_of_classify_hunk {st : LineState} {n : Nat} {line : Text} {next : Option Text}
    {header : HunkHeader} (h : classify st n line next = .ok (.hunk header)) :
    hunkHeader? line = some header := by
  have hline : ∀ l : Text, hunkLine l ≠ .hunk header := by
    intro l heq
    unfold hunkLine at heq
    split at heq <;> cases heq
  unfold classify at h
  split at h
  · split at h
    · cases h
    · exact absurd (Except.ok.inj h) (hline _)
  · split at h
    · cases h
    · exact absurd (Except.ok.inj h) (hline _)
  · split at h
    · split at h
      · rename_i hheader
        cases h
        exact hheader
      · cases h
    · split at h
      · exact absurd (Except.ok.inj h) (hline _)
      · cases h

/-- The hunk headers of a patch place the cursor within 64 bits. -/
theorem cursor_le_of_mem {patch : Text} {tokens : List Token} (htokens : tokenize patch = .ok tokens)
    {n : Nat} {header : HunkHeader} (hmem : ⟨n, .hunk header⟩ ∈ tokens) :
    header.cursor ≤ CursorRule.top := by
  obtain ⟨st, line, next, -, hclassify⟩ := exists_line_of_mem htokens hmem
  exact cursor_le_of_hunkHeader? (hunkHeader?_of_classify_hunk hclassify)

namespace Engine

variable {σ : Type} {strict : Bool} {load : σ → Text → Loaded × σ} {e e' : Engine} {f : OpenFile}
  {n : Nat} {kind : TokenKind} {token : Token} {s s' : σ}

/-! ## The stopped engine -/

/-- The engine with its cursor stopped at the greatest one of 64 bits. -/
def clamp (e : Engine) : Engine := { e with cursor := min e.cursor CursorRule.top }

@[simp]
theorem clamp_opened (e : Engine) : e.clamp.opened = e.opened := rfl

@[simp]
theorem clamp_cursor (e : Engine) : e.clamp.cursor = min e.cursor CursorRule.top := rfl

theorem clamp_of_cursor_le (h : e.cursor ≤ CursorRule.top) : e.clamp = e := by
  rw [clamp, Nat.min_eq_left h]

/-! Headers of files do not look at the cursor. -/

theorem flush_clamp (e : Engine) : e.clamp.flush = e.flush.clamp := by
  rw [flush, flush, clamp_opened]
  split
  · rfl
  · split <;> rfl

theorem result_clamp (e : Engine) : e.clamp.result = e.result := by
  rw [result, result, flush_clamp]
  rfl

theorem skipDeletion_clamp (e : Engine) : e.clamp.skipDeletion = e.skipDeletion.clamp := by
  have hpath : e.flush.clamp.oldPath = e.flush.oldPath := rfl
  rw [skipDeletion, skipDeletion, flush_clamp, hpath]
  cases e.flush.oldPath <;> rfl

theorem oldHeader_clamp (e : Engine) (path : Option Text) :
    e.clamp.oldHeader path = (e.oldHeader path).clamp := by
  rw [oldHeader, oldHeader, flush_clamp]
  rfl

/-- A file is opened with the cursor at its start, wherever it was before. -/
theorem openFile_clamp (load : σ → Text → Loaded × σ) (e : Engine) (path : Text) (s : σ) :
    e.clamp.openFile load path s = e.openFile load path s := by
  rw [openFile, openFile, flush_clamp]
  rfl

theorem openLoaded_cursor (e : Engine) (path : Text) (creating : Bool) (known : Loaded) :
    (e.openLoaded path creating known).cursor = e.cursor := by
  cases known with
  | content t => rfl
  | notFound => cases creating <;> rfl
  | unreadable reason => rfl

theorem openFile_cursor (load : σ → Text → Loaded × σ) (e : Engine) (path : Text) (s : σ) :
    (e.openFile load path s).1.cursor = 0 := by
  rw [openFile]
  dsimp only
  split
  · exact openLoaded_cursor ..
  · exact openLoaded_cursor ..

/-! ## Lines of hunks -/

/-- The open file, if there is one, has fewer lines than the greatest cursor. -/
def IsSmall (e : Engine) : Prop := ∀ f, e.opened = some f → f.buffer.lines.length < CursorRule.top

/-- Past the end of a file all cursors are alike. -/
theorem getElem?_clamp (h : f.buffer.lines.length < CursorRule.top) (e : Engine) :
    f.buffer.lines[e.clamp.cursor]? = f.buffer.lines[e.cursor]? := by
  rw [clamp_cursor]
  rcases Nat.le_total e.cursor CursorRule.top with hle | hge
  · rw [Nat.min_eq_left hle]
  · have hlength : f.buffer.lines.length ≤ CursorRule.top := Nat.le_of_lt h
    rw [Nat.min_eq_right hge, List.getElem?_eq_none hlength,
      List.getElem?_eq_none (Nat.le_trans hlength hge)]

theorem removeLine_clamp (h : f.buffer.lines.length < CursorRule.top) (strict : Bool) (e : Engine)
    (n : Nat) (expected : Text) :
    e.clamp.removeLine strict f n expected = (e.removeLine strict f n expected).map clamp := by
  by_cases hfound : f.buffer.lines[e.cursor]? = some expected
  · -- a line that is found stands before the end of the file, where the cursor has not stopped
    obtain ⟨hlt, -⟩ := List.getElem?_eq_some_iff.1 hfound
    have hcursor : e.cursor ≤ CursorRule.top := Nat.le_of_lt (Nat.lt_trans hlt h)
    rw [clamp_of_cursor_le hcursor, removeLine, if_pos hfound]
    refine congrArg Except.ok (clamp_of_cursor_le ?_).symm
    exact hcursor
  · rw [removeLine, removeLine, getElem?_clamp h]
    dsimp only
    rw [if_neg hfound, if_neg hfound]
    split <;> rfl

theorem addLine_clamp (h : f.buffer.lines.length < CursorRule.top) (e : Engine) (added : Text) :
    e.clamp.addLine f added = (e.addLine f added).clamp := by
  have hplace : min (min e.cursor CursorRule.top) f.buffer.lines.length
      = min e.cursor f.buffer.lines.length := by omega
  -- the cursor is back within the file, and has not stopped
  have hnext : (e.addLine f added).cursor ≤ CursorRule.top := by
    show min e.cursor f.buffer.lines.length + 1 ≤ CursorRule.top
    omega
  rw [clamp_of_cursor_le hnext, addLine, addLine, clamp_cursor, hplace]
  rfl

theorem keepLine_clamp (h : f.buffer.lines.length < CursorRule.top) (strict : Bool) (e : Engine)
    (n : Nat) (expected : Text) : e.clamp.keepLine .word strict f n expected
      = (e.keepLine .unbounded strict f n expected).map clamp := by
  have hnext : CursorRule.word.advance e.clamp.cursor
      = min (CursorRule.unbounded.advance e.cursor) CursorRule.top := by
    show min (min e.cursor CursorRule.top + 1) CursorRule.top = min (e.cursor + 1) CursorRule.top
    omega
  rw [keepLine, keepLine, getElem?_clamp h, hnext]
  split <;> rfl

/-! ## Tokens -/

/-- The stopped engine does what the other one does, and stops. -/
theorem step_clamp (h : e.IsSmall)
    (hcursor : ∀ header, kind = .hunk header → header.cursor ≤ CursorRule.top) :
    e.clamp.step .word strict ⟨n, kind⟩ = (e.step .unbounded strict ⟨n, kind⟩).map clamp := by
  by_cases hline : isHunkLine kind = true
  · cases hopened : e.opened with
    | none =>
      have hclosed : e.clamp.opened = none := hopened
      rw [step_of_opened_eq_none hline hopened, step_of_opened_eq_none hline hclosed]
      rfl
    | some f =>
      have hsmall := h f hopened
      rw [step, step, clamp_opened, hopened]
      cases kind with
      | remove expected => exact removeLine_clamp hsmall strict e n expected
      | add added => exact congrArg Except.ok (addLine_clamp hsmall e added)
      | context expected => exact keepLine_clamp hsmall strict e n expected
      | noNewline => rfl
      | oldHeader _ | newHeader _ | hunk _ | other => cases hline
  · cases kind with
    | oldHeader path => exact congrArg Except.ok (oldHeader_clamp e path)
    | newHeader path =>
      cases path with
      | none => exact congrArg Except.ok (skipDeletion_clamp e)
      | some path =>
        rw [step, step]
        rfl
    | hunk header =>
      have hplaced : { e with cursor := header.cursor, last := .kept }.clamp
          = { e with cursor := header.cursor, last := .kept } :=
        clamp_of_cursor_le (hcursor header rfl)
      exact congrArg Except.ok hplaced.symm
    | other =>
      rw [step, step]
      rfl
    | remove _ | add _ | context _ | noNewline => exact absurd rfl hline

theorem read_clamp (h : e.IsSmall)
    (hcursor : ∀ header, token.kind = .hunk header → header.cursor ≤ CursorRule.top) (s : σ) :
    e.clamp.read .word strict load token s = ((e.read .unbounded strict load token s).1.map clamp,
      (e.read .unbounded strict load token s).2) := by
  obtain ⟨n, kind⟩ := token
  by_cases hkind : ∃ path, kind = .newHeader (some path)
  · obtain ⟨path, rfl⟩ := hkind
    have hstart : (e.openFile load path s).1.clamp = (e.openFile load path s).1 :=
      clamp_of_cursor_le (openFile_cursor load e path s ▸ Nat.zero_le _)
    show (Except.ok (e.clamp.openFile load path s).1, (e.clamp.openFile load path s).2)
      = (.ok (e.openFile load path s).1.clamp, (e.openFile load path s).2)
    rw [openFile_clamp, hstart]
  · have hother : ∀ path, kind ≠ .newHeader (some path) := fun path heq => hkind ⟨path, heq⟩
    rw [read_of_ne hother, read_of_ne hother, step_clamp h hcursor]

/-- The engines agree over tokens while the open file is small. -/
theorem run_clamp {tokens : List Token}
    (hcursor : ∀ n header, ⟨n, .hunk header⟩ ∈ tokens → header.cursor ≤ CursorRule.top)
    (hsmall : ∀ front, front <+: tokens → ∀ e' s',
      run .word strict load front e.clamp s = (.ok e', s') → e'.IsSmall) :
    run .word strict load tokens e.clamp s
      = ((run .unbounded strict load tokens e s).1.map clamp,
        (run .unbounded strict load tokens e s).2) := by
  -- induction on the tokens, with the engines as they are before the first of them
  induction tokens generalizing e s with
  | nil => rfl
  | cons token tokens ih =>
    have hfirst : e.IsSmall := hsmall [] List.nil_prefix e.clamp s rfl
    have hread : e.clamp.read .word strict load token s
        = ((e.read .unbounded strict load token s).1.map clamp,
          (e.read .unbounded strict load token s).2) :=
      read_clamp hfirst (fun header hkind => hcursor token.line header
        (hkind ▸ List.mem_cons_self ..)) s
    rw [run_cons_eq, run_cons_eq, hread]
    rcases hnext : e.read .unbounded strict load token s with ⟨err | e₁, s₁⟩
    · rfl
    · refine ih (fun n header hmem => hcursor n header (List.mem_cons_of_mem _ hmem)) ?_
      intro front hfront e' s' hrun
      refine hsmall (token :: front) (List.cons_prefix_cons.2 ⟨rfl, hfront⟩) e' s' ?_
      rw [run_cons_eq, hread, hnext]
      exact hrun

/-- The engines start alike. -/
theorem run_start_clamp {tokens : List Token}
    (hcursor : ∀ n header, ⟨n, .hunk header⟩ ∈ tokens → header.cursor ≤ CursorRule.top)
    (hsmall : ∀ front, front <+: tokens → ∀ e' s',
      run .word strict load front {} s = (.ok e', s') → e'.IsSmall) :
    run .word strict load tokens {} s = ((run .unbounded strict load tokens {} s).1.map clamp,
      (run .unbounded strict load tokens {} s).2) := by
  have hstart : ({} : Engine).clamp = {} := clamp_of_cursor_le (Nat.zero_le _)
  have hclamp : run .word strict load tokens ({} : Engine).clamp s
      = ((run .unbounded strict load tokens {} s).1.map clamp,
        (run .unbounded strict load tokens {} s).2) :=
    run_clamp hcursor fun front hfront e' s' hrun => hsmall front hfront e' s' (hstart ▸ hrun)
  rwa [hstart] at hclamp

/-- A cursor of 64 bits stays one. -/
theorem cursor_le_of_run {tokens : List Token}
    (hcursor : ∀ n header, ⟨n, .hunk header⟩ ∈ tokens → header.cursor ≤ CursorRule.top)
    (hsmall : ∀ front, front <+: tokens → ∀ e' s',
      run .word strict load front {} s = (.ok e', s') → e'.IsSmall)
    (hrun : run .word strict load tokens {} s = (.ok e, s')) : e.cursor ≤ CursorRule.top := by
  have hclamp := run_start_clamp hcursor hsmall
  rw [hrun] at hclamp
  rcases hother : run .unbounded strict load tokens {} s with ⟨err | u, t⟩
  · rw [hother] at hclamp
    cases hclamp
  · rw [hother] at hclamp
    cases hclamp
    exact Nat.min_le_right ..

/-! ## Places -/

/-- What a token does to the lines of the open file, it does at a place that the file has, and the
cursor is one of 64 bits before and after. -/
structure WithinLines (e : Engine) (kind : TokenKind) (e' : Engine) : Prop where
  cursor_le : e.cursor ≤ CursorRule.top
  next_le : e'.cursor ≤ CursorRule.top
  /-- A line is deleted at the cursor, or none is. -/
  removed : ∀ expected, kind = .remove expected → e'.lines = e.lines ∨
    ∃ front back, e.lines = front ++ expected :: back ∧ front.length = e.cursor ∧
      e'.lines = front ++ back
  /-- A line is added at the cursor, or at the end if the file ends before, and the cursor stands
  behind it. -/
  added : ∀ text f, kind = .add text → e.opened = some f →
    ∃ front back, e.lines = front ++ back ∧ front.length = min e.cursor e.lines.length ∧
      e'.lines = front ++ text :: back ∧ e'.cursor = front.length + 1

theorem lines_of_read_remove {rule : CursorRule} {expected : Text}
    (hread : e.read rule strict load ⟨n, .remove expected⟩ s = (.ok e', s')) :
    e'.lines = e.lines ∨ ∃ front back, e.lines = front ++ expected :: back ∧
      front.length = e.cursor ∧ e'.lines = front ++ back := by
  cases reads_of_read hread with
  | line not_header passes =>
    cases hopened : e.opened with
    | none =>
      left
      rw [lines, lines, hopened, (passes.closed hopened).1]
    | some f =>
      rw [lines_of_opened hopened]
      cases passes.effect f hopened with
      | deleted found lines_eq opened warnings =>
        obtain ⟨front, back, hlines, hlength, herase⟩ := exists_append_of_getElem? found
        right
        exact ⟨front, back, hlines, hlength, by rw [lines_of_opened opened, lines_eq, herase]⟩
      | skipped found opened warnings => exact .inl (lines_of_opened opened)
      | passed not_removal not_added opened warnings => cases not_removal

theorem lines_of_read_add {rule : CursorRule} {text : Text} (hopened : e.opened = some f)
    (hread : e.read rule strict load ⟨n, .add text⟩ s = (.ok e', s')) :
    ∃ front back, e.lines = front ++ back ∧ front.length = min e.cursor e.lines.length ∧
      e'.lines = front ++ text :: back ∧ e'.cursor = front.length + 1 := by
  rw [read_of_ne (by simp), step, hopened] at hread
  obtain rfl : e.addLine f text = e' := Except.ok.inj (Prod.mk.inj hread).1
  rw [lines_of_opened hopened]
  let place := min e.cursor f.buffer.lines.length
  have hplace : place ≤ f.buffer.lines.length := Nat.min_le_right ..
  have hlength : (f.buffer.lines.take place).length = place := List.length_take_of_le hplace
  refine ⟨f.buffer.lines.take place, f.buffer.lines.drop place,
    (List.take_append_drop ..).symm, hlength, ?_, by rw [hlength]; rfl⟩
  have hinsert := insertIdx_length_append (f.buffer.lines.take place) (f.buffer.lines.drop place) text
  rw [List.take_append_drop, hlength] at hinsert
  exact hinsert

end Engine

/-! ## Patches -/

/-- No file that a patch opens gets as many lines as the greatest cursor. -/
def Fits {σ : Type} (strict : Bool) (load : σ → Text → Loaded × σ) (patch : Text) (s : σ) : Prop :=
  ∀ tokens, tokenize patch = .ok tokens → ∀ front, front <+: tokens → ∀ e s',
    Engine.run .word strict load front {} s = (.ok e, s') → e.IsSmall

/-- While files have fewer lines than the greatest cursor, a patch does the same with cursors that go
on without bound, and every line is deleted and added at a place that its file has. -/
theorem apply_unbounded {σ : Type} {strict : Bool} {load : σ → Text → Loaded × σ} {patch : Text}
    {s : σ} (hfits : Fits strict load patch s) :
    apply strict load patch s = applyWith .unbounded strict load patch s ∧
      ∀ front token back e s₁ e' s₂, tokenize patch = .ok (front ++ token :: back) →
        Engine.run .word strict load front {} s = (.ok e, s₁) →
        e.read .word strict load token s₁ = (.ok e', s₂) → e.WithinLines token.kind e' := by
  constructor
  · rw [apply, applyWith, applyWith]
    cases htokens : tokenize patch with
    | error err => rfl
    | ok tokens =>
      have hrun := Engine.run_start_clamp (fun n header => cursor_le_of_mem htokens)
        (hfits tokens htokens)
      dsimp only
      rw [hrun]
      rcases Engine.run .unbounded strict load tokens {} s with ⟨err | e, s'⟩
      · rfl
      · show (Except.ok e.clamp.result, s') = _
        rw [Engine.result_clamp]
  · intro front token back e s₁ e' s₂ htokens hfront hread
    have hcursor : ∀ n header, ⟨n, .hunk header⟩ ∈ front ++ token :: back →
        header.cursor ≤ CursorRule.top := fun n header => cursor_le_of_mem htokens
    have hstarts : front ++ [token] <+: front ++ token :: back := ⟨back, by simp⟩
    have hnext : Engine.run .word strict load (front ++ [token]) {} s = (.ok e', s₂) := by
      rw [Engine.run_append, hfront]
      dsimp only
      rw [Engine.run_cons_eq, hread]
      rfl
    refine ⟨?_, ?_, ?_, ?_⟩
    · exact Engine.cursor_le_of_run
        (fun n header hmem => hcursor n header (List.mem_append_left _ hmem))
        (fun front' hfront' => hfits _ htokens front' (hfront'.trans (List.prefix_append ..))) hfront
    · exact Engine.cursor_le_of_run (fun n header hmem => hcursor n header (hstarts.subset hmem))
        (fun front' hfront' => hfits _ htokens front' (hfront'.trans hstarts)) hnext
    · obtain ⟨n, kind⟩ := token
      rintro expected rfl
      exact Engine.lines_of_read_remove hread
    · obtain ⟨n, kind⟩ := token
      rintro text f rfl hopened
      exact Engine.lines_of_read_add hopened hread

/-- Whether files stay small can be read off the engines before and after each token. -/
theorem fits_of_all {σ : Type} {strict : Bool} {load : σ → Text → Loaded × σ} {patch : Text} {s : σ}
    {tokens : List Token} (htokens : tokenize patch = .ok tokens)
    (h : ∀ front ∈ tokens.inits, ∀ e ∈ (Engine.run .word strict load front {} s).1.toOption,
      ∀ f ∈ e.opened, f.buffer.lines.length < CursorRule.top) : Fits strict load patch s := by
  intro tokens' htokens' front hfront e s' hrun f hopened
  obtain rfl : tokens = tokens' := Except.ok.inj (htokens.symm.trans htokens')
  refine h front ((List.mem_inits front tokens).2 hfront) e ?_ f hopened
  rw [hrun]
  rfl

/-- A loader that knows one file. -/
def loadLetter (s : Unit) (path : Text) : Loaded × Unit :=
  (if path = ['f'] then .content ['a', '\n'] else .notFound, s)

/-- A patch that starts at the greatest cursor, from where a context line would move on. -/
def samplePastEnd : Text :=
  "+++ f\n@@ -1 +18446744073709551615,0 @@\n c\n+x\n@@ -1 +0 @@\n-a\n".toList

/-- Its tokens. -/
def samplePastEndTokens : List Token :=
  [⟨1, .newHeader (some ['f'])⟩, ⟨2, .hunk ⟨1, 1, 18446744073709551615, 0⟩⟩, ⟨3, .context ['c']⟩,
    ⟨4, .add ['x']⟩, ⟨5, .hunk ⟨1, 1, 0, 1⟩⟩, ⟨6, .remove ['a']⟩]

/-- The cursors differ after the context line, and the line is added at the end all the same. -/
theorem apply_unbounded_sample :
    Fits false loadLetter samplePastEnd () ∧
      (.ok ⟨[⟨['f'], "x\n".toList⟩], []⟩, ())
        = applyWith .unbounded false loadLetter samplePastEnd () := by
  have htokens : tokenize samplePastEnd = .ok samplePastEndTokens := by decide +kernel
  have hfits : Fits false loadLetter samplePastEnd () := fits_of_all htokens (by decide +kernel)
  have happly : apply false loadLetter samplePastEnd () = (.ok ⟨[⟨['f'], "x\n".toList⟩], []⟩, ()) := by
    decide +kernel
  exact ⟨hfits, happly ▸ (apply_unbounded hfits).1⟩

end Patch

end Mend
