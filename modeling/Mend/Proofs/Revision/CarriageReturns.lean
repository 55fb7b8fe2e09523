import Mend.Proofs.Revision.Apply

/-!
# Revisions of lines with carriage returns

A line that ends with a carriage return and a line feed is a line whose text ends with a carriage
return (`FileLine.withCr`). The patch of a revision of such lines is read without these carriage
returns, as the patch of the revision of the bare lines (`Revision.patchLines_patch_withoutCr`). A
buffer keeps them. So in strict mode such a patch is refused at the first old line that it shows
(`Revision.apply_missingCr`).
-/

namespace Mend

open Text (lf cr)

/-! ## Lines -/

namespace Text

/-- A text with a carriage return before each line feed. -/
def crlf (t : Text) : Text := t.flatMap fun c => if c = lf then [cr, lf] else [c]

@[simp]
theorem crlf_nil : crlf [] = [] := rfl

@[simp]
theorem crlf_cons_lf (t : Text) : crlf (lf :: t) = cr :: lf :: crlf t := rfl

theorem crlf_cons_of_ne {c : Char} (h : c ≠ lf) (t : Text) : crlf (c :: t) = c :: crlf t := by
  rw [crlf, List.flatMap_cons, if_neg h]
  rfl

@[simp]
theorem crlf_append (t u : Text) : crlf (t ++ u) = crlf t ++ crlf u := List.flatMap_append

theorem crlf_of_notMem {t : Text} (h : lf ∉ t) : crlf t = t := by
  induction t with
  | nil => rfl
  | cons c t ih =>
    rw [List.mem_cons, not_or] at h
    rw [crlf_cons_of_ne (Ne.symm h.1), ih h.2]

/-- A text without carriage returns is its own form with them when it has no line feed. -/
theorem crlf_eq_self_iff {t : Text} (h : cr ∉ t) : crlf t = t ↔ lf ∉ t := by
  refine ⟨fun heq hlf => h ?_, crlf_of_notMem⟩
  obtain ⟨front, back, rfl⟩ := List.append_of_mem hlf
  rw [← heq]
  simp

/-- Taking the carriage returns away again gives the text back. -/
theorem filter_crlf {t : Text} (h : cr ∉ t) : (crlf t).filter (· != cr) = t := by
  induction t with
  | nil => rfl
  | cons c t ih =>
    rw [List.mem_cons, not_or] at h
    by_cases hc : c = lf
    · subst hc
      rw [crlf_cons_lf, List.filter_cons_of_neg (by simp), List.filter_cons_of_pos (by decide),
        ih h.2]
    · rw [crlf_cons_of_ne hc, List.filter_cons_of_pos (by simpa using Ne.symm h.1), ih h.2]

theorem crlf_inj {t u : Text} (ht : cr ∉ t) (hu : cr ∉ u) : crlf t = crlf u ↔ t = u := by
  refine ⟨fun h => ?_, congrArg crlf⟩
  rw [← filter_crlf ht, h, filter_crlf hu]

end Text

namespace FileLine

/-- The line with a carriage return before its line feed. -/
def withCr (l : FileLine) : FileLine := if l.ended then { l with text := l.text ++ [cr] } else l

/-- The line without one carriage return at its end. -/
def withoutCr (l : FileLine) : FileLine := { l with text := Text.dropCr l.text }

@[simp]
theorem withCr_ended (l : FileLine) : l.withCr.ended = l.ended := by
  rw [withCr]
  split <;> rfl

theorem withCr_of_ended {l : FileLine} (h : l.ended = true) : l.withCr.text = l.text ++ [cr] := by
  rw [withCr, if_pos h]

theorem withCr_of_not_ended {l : FileLine} (h : l.ended = false) : l.withCr = l := by
  rw [withCr, h, if_neg Bool.false_ne_true]

theorem withoutCr_withCr {l : FileLine} (h : cr ∉ l.text) : l.withCr.withoutCr = l := by
  obtain ⟨text, ended⟩ := l
  cases ended with
  | true => simp [withCr, withoutCr, Text.dropCr]
  | false =>
    have hlast : text.getLast? ≠ some cr := fun hcr => h (List.mem_of_getLast? hcr)
    simp [withCr, withoutCr, Text.dropCr_eq_self hlast]

theorem map_withoutCr_withCr {ls : List FileLine} (h : ∀ l ∈ ls, cr ∉ l.text) :
    (ls.map withCr).map withoutCr = ls := by
  rw [List.map_map]
  calc ls.map (withoutCr ∘ withCr) = ls.map id :=
        List.map_congr_left fun l hl => withoutCr_withCr (h l hl)
    _ = ls := List.map_id ls

theorem written_withCr {l : FileLine} (h : lf ∉ l.text) :
    l.withCr.written = Text.crlf l.written := by
  obtain ⟨text, ended⟩ := l
  cases ended with
  | true => simp [withCr, written, Text.crlf_of_notMem h]
  | false => simp [withCr, written, Text.crlf_of_notMem h]

/-- Carriage returns before the line feeds of the lines stand before those of the content. -/
theorem content_withCr {ls : List FileLine} (h : ∀ l ∈ ls, lf ∉ l.text) :
    content (ls.map withCr) = Text.crlf (content ls) := by
  induction ls with
  | nil => rfl
  | cons l ls ih =>
    rw [List.forall_mem_cons] at h
    rw [List.map_cons, content_cons, content_cons, Text.crlf_append, written_withCr h.1, ih h.2]

theorem IsSide.withCr {ls : List FileLine} (h : IsSide ls) : IsSide (ls.map withCr) where
  ended_of_later := by
    rw [List.pairwise_map]
    simpa using h.ended_of_later
  lf_notMem l hl := by
    obtain ⟨m, hm, rfl⟩ := List.mem_map.1 hl
    have hlf := h.lf_notMem m hm
    rw [FileLine.withCr]
    split
    · simpa using ⟨hlf, by decide⟩
    · exact hlf
  text_ne_nil l hl hended := by
    obtain ⟨m, hm, rfl⟩ := List.mem_map.1 hl
    rw [withCr_ended] at hended
    rw [withCr_of_not_ended hended]
    exact h.text_ne_nil m hm hended

/-- Only lines that a line feed ends make a content with one. -/
theorem exists_ended_of_lf_mem {ls : List FileLine} (hls : ∀ l ∈ ls, lf ∉ l.text)
    (h : lf ∈ content ls) : ∃ l ∈ ls, l.ended = true := by
  obtain ⟨l, hl, hmem⟩ := List.mem_flatMap.1 h
  refine ⟨l, hl, ?_⟩
  by_contra hended
  rw [written, if_neg hended] at hmem
  exact hls l hl hmem

end FileLine

namespace Revision

open Patch

/-! ## Revisions -/

/-- The edit of the line without a carriage return at its end. -/
def Edit.withoutCr : Edit → Edit
  | keep l => keep l.withoutCr
  | remove l => remove l.withoutCr
  | add l => add l.withoutCr

/-- The hunk of the lines without carriage returns at their ends. -/
def Hunk.withoutCr (h : Hunk) : Hunk :=
  { h with gap := h.gap.map FileLine.withoutCr, edits := h.edits.map Edit.withoutCr }

/-- The revision of the lines without carriage returns at their ends. -/
def withoutCr (r : Revision) : Revision :=
  { r with hunks := r.hunks.map Hunk.withoutCr, rest := r.rest.map FileLine.withoutCr }

theorem Edit.old_withoutCr (e : Edit) : e.withoutCr.old = e.old.map FileLine.withoutCr := by
  cases e <;> rfl

theorem Edit.new_withoutCr (e : Edit) : e.withoutCr.new = e.new.map FileLine.withoutCr := by
  cases e <;> rfl

theorem Edit.row_withoutCr (e : Edit) : e.withoutCr.row = Text.dropCr e.row := by
  have hmark : e.mark ≠ cr := by cases e <;> simp [mark, cr]
  rw [row, row, Text.dropCr_cons hmark]
  cases e <;> rfl

@[simp]
theorem Hunk.gap_withoutCr (h : Hunk) : h.withoutCr.gap = h.gap.map FileLine.withoutCr := rfl

@[simp]
theorem Hunk.edits_withoutCr (h : Hunk) : h.withoutCr.edits = h.edits.map Edit.withoutCr := rfl

@[simp]
theorem Hunk.old_withoutCr (h : Hunk) : h.withoutCr.old = h.old.map FileLine.withoutCr := by
  simp [Hunk.old, List.flatMap_map, List.map_flatMap, Edit.old_withoutCr]

@[simp]
theorem Hunk.new_withoutCr (h : Hunk) : h.withoutCr.new = h.new.map FileLine.withoutCr := by
  simp [Hunk.new, List.flatMap_map, List.map_flatMap, Edit.new_withoutCr]

theorem oldLines_withoutCr (r : Revision) :
    r.withoutCr.oldLines = r.oldLines.map FileLine.withoutCr := by
  simp [oldLines, withoutCr, List.flatMap_map, List.map_flatMap]

theorem newLines_withoutCr (r : Revision) :
    r.withoutCr.newLines = r.newLines.map FileLine.withoutCr := by
  simp [newLines, withoutCr, List.flatMap_map, List.map_flatMap]

theorem script_withoutCr (r : Revision) : r.withoutCr.script = r.script.map Edit.withoutCr := by
  simp [script, withoutCr, List.flatMap_map, List.map_flatMap, Edit.withoutCr, Function.comp_def]

/-- The numbers of lines stay. -/
theorem numbered_withoutCr {before : Nat} {hs : List Hunk} (h : Numbered before hs) :
    Numbered before (hs.map Hunk.withoutCr) := by
  induction hs generalizing before with
  | nil => trivial
  | cons hunk hs ih =>
    obtain ⟨hold, hnew, hrest⟩ := h
    rw [List.map_cons, Numbered, Hunk.newStart, Hunk.gap_withoutCr, Hunk.new_withoutCr,
      List.length_map, List.length_map]
    exact ⟨hold, hnew, ih hrest⟩

theorem isChain_withoutCr {es : List Edit}
    (h : es.IsChain fun a b => a.addsThenRemoves b = false) :
    (es.map Edit.withoutCr).IsChain fun a b => a.addsThenRemoves b = false := by
  rw [List.isChain_map]
  refine h.imp fun a b hab => ?_
  cases a <;> cases b <;> first | rfl | exact hab

/-! ## Rows -/

theorem Edit.rows_withoutCr (e : Edit) : e.withoutCr.rows = e.rows.map Text.dropCr := by
  have hended : e.withoutCr.line.ended = e.line.ended := by cases e <;> rfl
  have hmark : Text.dropCr endMark = endMark := by decide
  rw [rows, rows, Edit.row_withoutCr, hended]
  split <;> simp [hmark]

theorem Hunk.rows_withoutCr {h : Hunk} (ho : range? h.oldRange ≠ none)
    (hn : range? h.newRange ≠ none) : h.withoutCr.rows = h.rows.map Text.dropCr := by
  have hheader : Text.dropCr h.header = h.header :=
    Text.dropCr_eq_self (Hunk.isRow_header ho hn).getLast?_ne
  rw [rows, rows, List.map_cons, hheader, Hunk.edits_withoutCr, List.flatMap_map, List.map_flatMap]
  simp only [Edit.rows_withoutCr]
  rfl

/-- The rows of lines without carriage returns at their ends are the rows without them. -/
theorem rows_withoutCr {r : Revision} (h : r.withoutCr.WellFormed) :
    r.withoutCr.rows = r.rows.map Text.dropCr := by
  have hrow := isRow_of_mem_rows h
  have hnum : Numbered 0 (r.hunks.map Hunk.withoutCr) := h.numbered
  have hold : Text.dropCr r.oldHeader = r.oldHeader :=
    Text.dropCr_eq_self (hrow r.oldHeader (List.mem_cons_self ..)).getLast?_ne
  have hnew : Text.dropCr r.newHeader = r.newHeader :=
    Text.dropCr_eq_self
      (hrow r.newHeader (List.mem_cons_of_mem _ (List.mem_cons_self ..))).getLast?_ne
  have hhunks : (r.hunks.map Hunk.withoutCr).flatMap Hunk.rows
      = (r.hunks.flatMap Hunk.rows).map Text.dropCr := by
    rw [List.flatMap_map, List.map_flatMap]
    refine List.flatMap_congr fun hunk hhunk => ?_
    obtain ⟨ho, hn⟩ := range?_ne_none hnum (List.mem_map_of_mem hhunk)
    exact Hunk.rows_withoutCr ho hn
  rw [rows, rows, List.map_cons, List.map_cons, hold, hnew, ← hhunks]
  rfl

/-- The patch of a revision is read as the patch of the revision of the lines without carriage
returns at their ends. -/
theorem patchLines_patch_withoutCr {r : Revision} (h : r.withoutCr.WellFormed) :
    patchLines (patch [r]) = patchLines (patch [r.withoutCr]) := by
  have hrow := isRow_of_mem_rows h
  have hne : r.rows ≠ [] := List.cons_ne_nil _ _
  have hlf : ∀ row ∈ r.rows, lf ∉ row := by
    intro row hmem hlf
    have hdropped : Text.dropCr row ∈ r.withoutCr.rows := by
      rw [rows_withoutCr h]
      exact List.mem_map_of_mem hmem
    refine (hrow _ hdropped).lf_notMem ?_
    -- a line feed is no carriage return, so it is not dropped
    by_cases hlast : row.getLast? = some cr
    · obtain ⟨front, rfl⟩ := List.getLast?_eq_some_iff.1 hlast
      rw [Text.dropCr, Text.dropSuffix_append]
      simpa [lf, cr] using hlf
    · rwa [Text.dropCr_eq_self hlast]
  have hne' : r.withoutCr.rows ≠ [] := List.cons_ne_nil _ _
  have hpatch : patch [r] = Text.unlines r.rows := by simp [patch]
  have hpatch' : patch [r.withoutCr] = Text.unlines r.withoutCr.rows := by simp [patch]
  rw [hpatch, hpatch', patchLines_unlines hne' hrow, patchLines, Text.splitOn_unlines hne hlf,
    rows_withoutCr h]

/-! ## Buffers with carriage returns -/

end Revision

/-- A mismatch at a path where the line that is found ends with a carriage return that the expected
one lacks. -/
def PatchError.IsMissingCr (path : Text) : PatchError → Prop
  | .contextMismatch _ p expected found | .removalMismatch _ p expected found =>
    p = path ∧ found = some (expected ++ [cr])
  | .unparseableHeader .. => False

namespace Revision

open Patch

/-- A revision that leaves all lines alone. -/
def unchanged (path : Text) (ls : List FileLine) : Revision := ⟨path, false, [], ls⟩

theorem wellFormed_unchanged {path : Text} {ls : List FileLine} (hpath : IsPlainPath path)
    (hls : FileLine.IsSide ls) (hfits : ls.length < 2 ^ 64) : (unchanged path ls).WellFormed where
  plain_path := hpath
  old_of_creates h := by cases h
  old_side := hls
  new_side := hls
  fits := hfits
  numbered := trivial
  no_cr e he := by cases he
  no_header h hh := by cases hh
  no_reopen := List.Pairwise.nil

section Run

variable {σ : Type} {load : σ → Text → Loaded × σ}

/-- The edit of an old line stops at a line with a carriage return at its end. -/
theorem step_missingCr (rule : CursorRule) (eng : Engine) (path : Text) {e : Edit} {l : FileLine}
    (he : e.old = [l]) (front back : List Text) (ended : Bool) (last : LastLine) (n : Nat) :
    ∃ err, (eng.editing path front ((l.text ++ [cr]) :: back) ended last).step rule true
        ⟨n, e.kind⟩ = .error err ∧ err.IsMissingCr path := by
  have hfound : (front ++ (l.text ++ [cr]) :: back)[front.length]? = some (l.text ++ [cr]) := by
    simp
  have hne : l.text ++ [cr] ≠ l.text := by
    intro heq
    have hlength := congrArg List.length heq
    simp at hlength
  cases e with
  | keep m =>
    obtain rfl : m = l := by simpa [Edit.old] using he
    refine ⟨.contextMismatch n path m.text (some (m.text ++ [cr])), ?_, rfl, rfl⟩
    simp [Engine.step, Edit.kind, Engine.editing, Engine.keepLine]
  | remove m =>
    obtain rfl : m = l := by simpa [Edit.old] using he
    refine ⟨.removalMismatch n path m.text (some (m.text ++ [cr])), ?_, rfl, rfl⟩
    simp [Engine.step, Edit.kind, Engine.editing, Engine.removeLine]
  | add m => cases he

/-- The edits of a hunk stop at the first old line, when the buffer has it with a carriage return at
its end. -/
theorem run_hunk_missingCr (load : σ → Text → Loaded × σ) (eng : Engine) (path : Text) {hunk : Hunk}
    {added es : List Edit} {e : Edit} {l : FileLine} (hedits : hunk.edits = added ++ e :: es)
    (hadded : added.flatMap Edit.old = []) (he : e.old = [l])
    (hnum : range? hunk.newRange = some (hunk.newStart hunk.gap.length, hunk.new.length))
    (hbound : hunk.gap.length + (added.flatMap Edit.new).length ≤ 2 ^ 64 - 1)
    (gap : List Text) (hgap : gap.length = hunk.gap.length) (back : List Text) (ended : Bool)
    (last : LastLine) (n : Nat) (ts : List Token) (s : σ) :
    ∃ err, (Engine.run .word true load (numbered n hunk.kinds ++ ts)
        (eng.editing path [] (gap ++ (l.text ++ [cr]) :: back) ended last) s).1 = .error err ∧
      err.IsMissingCr path := by
  have hcursor : hunk.numbers.cursor = ([] : List Text).length + gap.length := by
    rw [Hunk.cursor_numbers hnum, hgap, List.length_nil, Nat.zero_add]
  have hheader := Engine.step_hunk .word true eng path [] ((l.text ++ [cr]) :: back) ended last n
    gap hcursor
  obtain ⟨last', hrun⟩ := run_edits true load eng path exactBefore_word added gap
    ((l.text ++ [cr]) :: back) (by rwa [hgap]) ended .kept (n + 1)
    (numbered (n + 1 + (added.flatMap Edit.kinds).length) ((e :: es).flatMap Edit.kinds) ++ ts) s
  obtain ⟨err, hstep, herr⟩ := step_missingCr .word eng path he
    (gap ++ (added.flatMap Edit.new).map FileLine.text) back (added.foldl Edit.ends ended)
    last' (n + 1 + (added.flatMap Edit.kinds).length)
  have hkind : ∀ p, e.kind ≠ .newHeader (some p) := by cases e <;> simp [Edit.kind]
  refine ⟨err, ?_, herr⟩
  -- the header moves the cursor over the gap, and added lines leave the old lines where they are
  rw [Hunk.kinds, numbered, List.cons_append, Engine.run_cons load (by simp) hheader, hedits,
    List.flatMap_append, numbered_append, List.append_assoc]
  rw [hadded, List.map_nil, List.nil_append] at hrun
  rw [List.nil_append, hrun, List.flatMap_cons, Edit.kinds, List.cons_append, numbered,
    List.cons_append, Engine.run_cons_of_ne hkind, hstep]

/-- In strict mode the first old line that a patch shows has to be the line that is found. -/
theorem apply_missingCr {r : Revision} (h : r.WellFormed) (hcreates : r.creates = false)
    (hsize : r.oldLines.length < 2 ^ 64)
    (hload : ∀ s, (load s r.path).1 = .content (FileLine.content (r.oldLines.map FileLine.withCr)))
    {hunk : Hunk} {hs : List Hunk} (hhunks : r.hunks = hunk :: hs) {added es : List Edit} {e : Edit}
    {l : FileLine} (hedits : hunk.edits = added ++ e :: es) (hadded : added.flatMap Edit.old = [])
    (he : e.old = [l]) (hended : l.ended = true) (s : σ) :
    ∃ err, (apply true load (patch [r]) s).1 = .error err ∧ err.IsMissingCr r.path := by
  -- the file is opened as one whose lines end with carriage returns
  let r' : Revision := unchanged r.path (r.oldLines.map FileLine.withCr)
  have hr' : r'.WellFormed :=
    wellFormed_unchanged h.plain_path h.old_side.withCr (by simpa using hsize)
  have hopen : (({} : Engine).oldHeader r.oldPath).openFile load r.path s
      = ((ready {} r').editing r.path [] (r'.oldLines.map FileLine.text)
          (FileLine.endedLast r'.oldLines) .kept, (load s r.path).2) := by
    have hpath : r.oldPath = r'.oldPath := by simp [oldPath, r', unchanged, hcreates]
    rw [hpath]
    exact openFile_oldHeader hr' hload (fun f hf => absurd hf List.not_mem_nil) s
  obtain ⟨back, hold⟩ : ∃ back, r'.oldLines.map FileLine.text
      = (hunk.gap.map FileLine.withCr).map FileLine.text ++ (l.text ++ [cr]) :: back := by
    have hlines : r'.oldLines = r.oldLines.map FileLine.withCr := rfl
    refine ⟨((es.flatMap Edit.old ++ hs.flatMap (fun h => h.gap ++ h.old) ++ r.rest).map
      FileLine.withCr).map FileLine.text, ?_⟩
    rw [hlines, oldLines, hhunks]
    simp [Hunk.old, hedits, hadded, he, FileLine.withCr_of_ended hended]
  have hnum : range? hunk.newRange = some (hunk.newStart hunk.gap.length, hunk.new.length) := by
    have hnumbered := h.numbered
    rw [hhunks] at hnumbered
    simpa using hnumbered.2.1
  have hbound : hunk.gap.length + (added.flatMap Edit.new).length ≤ 2 ^ 64 - 1 := by
    have hfits := h.fits
    simp only [newLines, hhunks, Hunk.new, hedits, List.flatMap_cons, List.flatMap_append,
      List.length_append] at hfits
    omega
  obtain ⟨err, hrun, herr⟩ := run_hunk_missingCr load (ready {} r') r.path hedits hadded he hnum
    hbound ((hunk.gap.map FileLine.withCr).map FileLine.text) (by simp) back
    (FileLine.endedLast r'.oldLines) .kept 3
    (numbered (3 + hunk.kinds.length) (hs.flatMap Hunk.kinds)) (load s r.path).2
  have htokens := tokenize_patch (List.cons_ne_nil r []) (by simpa using h)
  have hkinds : [r].flatMap kinds
      = .oldHeader r.oldPath :: .newHeader (some r.path) ::
        (hunk.kinds ++ hs.flatMap Hunk.kinds) := by
    simp [kinds, hhunks]
  have hfail : (Engine.run .word true load (numbered 1 ([r].flatMap kinds)) {} s).1
      = .error err := by
    have hheader : ({} : Engine).step .word true ⟨1, .oldHeader r.oldPath⟩
        = .ok (({} : Engine).oldHeader r.oldPath) := rfl
    rw [hkinds, numbered, Engine.run_cons load (by simp) hheader, numbered, Engine.run, hopen, hold,
      numbered_append]
    exact hrun
  refine ⟨err, ?_, herr⟩
  rw [apply_of_tokenize htokens]
  generalize Engine.run .word true load (numbered 1 ([r].flatMap kinds)) {} s = p at hfail ⊢
  obtain ⟨result, s'⟩ := p
  obtain rfl := hfail
  rfl

end Run

end Revision

end Mend
