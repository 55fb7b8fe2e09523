import Mend.Proofs.Diff.Groups
import Mend.Proofs.Revision.Apply

/-!
# Diff and patch

The unified diff of two versions of a file, applied to the first one, gives the second one
(`Text.apply_unifiedDiffBy`), whatever finds the line difference, as long as that is an edit script
(`Diff.IsScript`).

The proof shows that the diff is the patch of a revision: its lines are those of the two versions
(`Text.exists_lines`), each group of operations is a hunk with the numbers that its header gives,
and the lines between groups are the gaps (`Diff.exists_hunks`).
-/

namespace Mend

namespace Text

/-! ## Lines -/

/-- The lines that are found after `line` was read without its end. -/
theorem exists_lines_from {line : Text} (hline : lf ∉ line) {t : Text} (hcr : cr ∉ t) :
    ∃ ls, FileLine.IsSide ls ∧ FileLine.content ls = line.reverse ++ t ∧
      terminatedFrom line t = ls.map FileLine.written := by
  induction t generalizing line with
  | nil =>
    cases line with
    | nil => exact ⟨[], FileLine.isSide_nil, rfl, rfl⟩
    | cons c line =>
      refine ⟨[⟨(c :: line).reverse, false⟩], ⟨by simp, ?_, ?_⟩, ?_, ?_⟩
      · simpa [and_comm] using hline
      · simp
      · simp [FileLine.written]
      · simp [terminatedFrom, FileLine.written]
  | cons c t ih =>
    rw [List.mem_cons, not_or] at hcr
    by_cases hc : c = lf
    · subst hc
      -- a line feed ends the line, and a new one starts
      obtain ⟨ls, hside, hcontent, hlines⟩ := ih (List.not_mem_nil) hcr.2
      refine ⟨⟨line.reverse, true⟩ :: ls, hside.cons rfl (by simpa using hline), ?_, ?_⟩
      · simp [FileLine.written, hcontent]
      · simp [terminatedFrom, lf, FileLine.written, hlines]
    -- the character joins the line that is being read
    · have hline' : lf ∉ c :: line := by
        rw [List.mem_cons, not_or]
        exact ⟨Ne.symm hc, hline⟩
      obtain ⟨ls, hside, hcontent, hlines⟩ := ih hline' hcr.2
      refine ⟨ls, hside, by simp [hcontent], ?_⟩
      rw [← hlines, terminatedFrom]
      · simp [hc, Ne.symm hcr.1]
      · rintro rest rfl
        exact absurd rfl hcr.1

/-- A text without carriage returns is the content of lines, and these are its lines with their
terminators. -/
theorem exists_lines {t : Text} (hcr : cr ∉ t) :
    ∃ ls, FileLine.IsSide ls ∧ FileLine.content ls = t ∧
      (terminatedLines t).toArray = Diff.writtenLines ls := by
  obtain ⟨ls, hside, hcontent, hlines⟩ := @exists_lines_from [] List.not_mem_nil t hcr
  exact ⟨ls, hside, hcontent, congrArg List.toArray hlines⟩

end Text

namespace Diff

open Revision

/-! ## Ranges -/

theorem number?_ofNat {n : Nat} (h : n < 2 ^ 64) : Patch.number? (Text.ofNat n) = some n := by
  have hsign : Text.dropPrefix ['+'] (Text.ofNat n) = Text.ofNat n := by
    rw [Text.dropPrefix, Text.dropPrefix?_eq_none, Option.getD_none]
    rintro ⟨rest, hrest⟩
    have hdigit : ('+' : Char).isDigit := Text.isDigit_of_mem_ofNat (n := n) (by simp [← hrest])
    revert hdigit
    decide
  rw [Patch.number?, hsign, Text.toNat?_ofNat]
  exact if_pos h

theorem comma_notMem_ofNat (n : Nat) : ',' ∉ Text.ofNat n := by
  intro hmem
  have hdigit := Text.isDigit_of_mem_ofNat hmem
  revert hdigit
  decide

/-- A range in a header reads as its start and its length. -/
theorem range?_rangeText {first last : Nat} (hle : first ≤ last) (hlast : last < 2 ^ 64) :
    Patch.range? (rangeText first last)
      = some (if last - first = 0 then first else first + 1, last - first) := by
  have hcut : ∀ m n : Nat, Text.cutFirst? ',' (Text.ofNat m ++ ',' :: Text.ofNat n)
      = some (Text.ofNat m, Text.ofNat n) :=
    fun m n => Text.cutFirst?_append (comma_notMem_ofNat m) _
  obtain ⟨n, rfl⟩ := Nat.exists_eq_add_of_le hle
  have hfirst : first < 2 ^ 64 := by omega
  rw [Nat.add_sub_cancel_left]
  -- an empty range and a range of one line are written in forms of their own
  obtain _ | _ | n := n
  · have hzero : ['0'] = Text.ofNat 0 := by decide
    have htext : rangeText first (first + 0) = Text.ofNat first ++ ',' :: Text.ofNat 0 := by
      simp [rangeText, ← hzero]
    rw [htext, Patch.range?, hcut]
    simp [number?_ofNat hfirst, number?_ofNat (n := 0) (by decide)]
  · have htext : rangeText first (first + 1) = Text.ofNat (first + 1) := by simp [rangeText]
    rw [Nat.zero_add, htext, Patch.range?, Text.cutFirst?_eq_none (comma_notMem_ofNat _)]
    simp [number?_ofNat hlast]
  · have htext : rangeText first (first + (n + 2))
        = Text.ofNat (first + 1) ++ ',' :: Text.ofNat (n + 2) := by simp [rangeText]
    have hstart : first + 1 < 2 ^ 64 := by omega
    have hlength : n + 2 < 2 ^ 64 := by omega
    rw [htext, Patch.range?, hcut]
    simp [number?_ofNat hstart, number?_ofNat hlength]

/-! ## Rows -/

/-- A line of a file that its terminator shows to be one. -/
structure IsPlain (l : FileLine) : Prop where
  lf_notMem : Text.lf ∉ l.text
  /-- A carriage return at the end would be a terminator. -/
  getLast?_ne : l.ended = false → l.text.getLast? ≠ some Text.cr
  text_ne_nil : l.ended = false → l.text ≠ []

theorem isTerminated_written {l : FileLine} (h : IsPlain l) : isTerminated l.written = l.ended := by
  cases hl : l.ended with
  | true => simp [isTerminated, FileLine.written, hl]
  | false =>
    have hlf : l.text.getLast? ≠ some Text.lf := fun heq => h.lf_notMem (List.mem_of_getLast? heq)
    simp [isTerminated, FileLine.written, hl, hlf, h.getLast?_ne hl]

/-- A line with a mark in front is the rows of an edit. -/
theorem lineText_written {e : Edit} (h : IsPlain e.line) :
    lineText e.mark e.line.written = Text.unlines e.rows := by
  have hmark : "\n\\ No newline at end of file\n".toList = Text.lf :: endMark ++ [Text.lf] := rfl
  cases hl : e.line.ended with
  | true =>
    rw [lineText, isTerminated_written h, hl, if_pos rfl]
    simp [FileLine.written, Edit.rows, Edit.row, hl]
  | false =>
    rw [lineText, isTerminated_written h, hl, if_neg Bool.false_ne_true, hmark]
    simp [FileLine.written, Edit.rows, Edit.row, hl]

variable {la lb : List FileLine}

/-- The lines of a range with a mark in front are the rows of edits. -/
theorem rangeLines_writtenLines {ls ms : List FileLine} {i n : Nat} (hms : (ls.drop i).take n = ms)
    (hplain : ∀ l ∈ ls, IsPlain l) {f : FileLine → Edit} {mark : Char}
    (hmark : ∀ l, (f l).mark = mark) (hline : ∀ l, (f l).line = l) :
    rangeLines mark (writtenLines ls) i n = Text.unlines ((ms.map f).flatMap Edit.rows) := by
  have hplain' : ∀ m ∈ ms, IsPlain m := by
    intro m hm
    rw [← hms] at hm
    exact hplain m (List.mem_of_mem_drop (List.mem_of_mem_take hm))
  have hrow : ∀ m ∈ ms, lineText mark m.written = Text.unlines (f m).rows := by
    intro m hm
    have hplainm : IsPlain (f m).line := (hline m).symm ▸ hplain' m hm
    have := lineText_written hplainm
    rwa [hmark, hline] at this
  rw [rangeLines, extract_writtenLines, hms, List.flatMap_map, Text.unlines_flatMap, writtenLines,
    List.map_map, List.flatten_eq_flatMap, List.flatMap_map]
  exact List.flatMap_congr hrow

/-- The text of an operation is the rows of its part. -/
theorem opText_op {p : Part} {i j : Nat} {ra rb : List FileLine} (ha : la.drop i = p.old ++ ra)
    (hb : lb.drop j = p.new ++ rb) (hpa : ∀ l ∈ la, IsPlain l) (hpb : ∀ l ∈ lb, IsPlain l) :
    opText (writtenLines la) (writtenLines lb) (p.op i j)
      = Text.unlines (p.edits.flatMap Edit.rows) := by
  have hold : (la.drop i).take p.old.length = p.old := by rw [ha, List.take_left]
  have hnew : (lb.drop j).take p.new.length = p.new := by rw [hb, List.take_left]
  have hremoved : rangeLines '-' (writtenLines la) i p.old.length
      = Text.unlines ((p.old.map Edit.remove).flatMap Edit.rows) :=
    rangeLines_writtenLines hold hpa (fun _ => rfl) fun _ => rfl
  have hadded : rangeLines '+' (writtenLines lb) j p.new.length
      = Text.unlines ((p.new.map Edit.add).flatMap Edit.rows) :=
    rangeLines_writtenLines hnew hpb (fun _ => rfl) fun _ => rfl
  by_cases hkind : p.kind = .keep
  · cases p with
    | keep ls =>
      exact rangeLines_writtenLines hold hpa (f := .keep) (fun _ => rfl) fun _ => rfl
    | delete os => cases hkind
    | insert ns => cases hkind
    | replace os ns => cases hkind
  · have hchange : opText (writtenLines la) (writtenLines lb) (p.op i j)
        = rangeLines '-' (writtenLines la) i p.old.length
          ++ rangeLines '+' (writtenLines lb) j p.new.length := by
      cases p <;> first | rfl | exact absurd rfl hkind
    rw [hchange, hremoved, hadded, Part.edits_eq_append hkind, List.flatMap_append, Text.unlines_append]

/-- The text of the operations of parts is the rows of their edits. -/
theorem flatMap_opText {ps : List Part} {i j : Nat} {ra rb : List FileLine}
    (ha : la.drop i = oldOf ps ++ ra) (hb : lb.drop j = newOf ps ++ rb)
    (hpa : ∀ l ∈ la, IsPlain l) (hpb : ∀ l ∈ lb, IsPlain l) :
    (opsAt i j ps).flatMap (opText (writtenLines la) (writtenLines lb))
      = Text.unlines ((editsOf ps).flatMap Edit.rows) := by
  induction ps generalizing i j with
  | nil => rfl
  | cons p ps ih =>
    rw [oldOf_cons, List.append_assoc] at ha
    rw [newOf_cons, List.append_assoc] at hb
    have ha' : la.drop (i + p.old.length) = oldOf ps ++ ra := by
      rw [← List.drop_drop, ha, List.drop_left]
    have hb' : lb.drop (j + p.new.length) = newOf ps ++ rb := by
      rw [← List.drop_drop, hb, List.drop_left]
    rw [opsAt, List.flatMap_cons, opText_op ha hb hpa hpb, ih ha' hb', editsOf_cons,
      List.flatMap_append, Text.unlines_append]

/-! ## Hunks -/

/-- The hunk of a group that stands at two positions. -/
def hunkAt (i j : Nat) (gap : List FileLine) (ps : List Part) : Revision.Hunk where
  gap := gap
  oldRange := rangeText i (i + (oldOf ps).length)
  newRange := rangeText j (j + (newOf ps).length)
  edits := editsOf ps

/-- The first and the last operation of parts give the ranges of the parts. -/
theorem exists_ends_opsAt {ps : List Part} (hne : ps ≠ []) (i j : Nat) :
    ∃ first last, (opsAt i j ps).head? = some first ∧ (opsAt i j ps).getLast? = some last ∧
      first.old = i ∧ first.new = j ∧
      last.oldEnd = i + (oldOf ps).length ∧ last.newEnd = j + (newOf ps).length := by
  obtain ⟨init, last, rfl⟩ : ∃ init last, ps = init ++ [last] :=
    ⟨_, _, (List.dropLast_concat_getLast hne).symm⟩
  have hlast : (opsAt i j (init ++ [last])).getLast?
      = some (last.op (i + (oldOf init).length) (j + (newOf init).length)) := by
    rw [opsAt_append]
    simp [opsAt]
  obtain ⟨first, hfirst, hold, hnew⟩ : ∃ first, (opsAt i j (init ++ [last])).head? = some first ∧
      first.old = i ∧ first.new = j := by
    cases init <;> exact ⟨_, rfl, rfl, rfl⟩
  refine ⟨first, _, hfirst, hlast, hold, hnew, ?_, ?_⟩
  · simp [Op.oldEnd, Part.op, Nat.add_assoc]
  · simp [Op.newEnd, Part.op, Nat.add_assoc]

/-- The header of a group names the ranges of its parts. -/
theorem hunkHeaderText_opsAt {ps : List Part} (hne : ps ≠ []) (i j : Nat) (gap : List FileLine) :
    hunkHeaderText (opsAt i j ps) = (hunkAt i j gap ps).header ++ [Text.lf] := by
  obtain ⟨first, last, hfirst, hlast, hold, hnew, holdEnd, hnewEnd⟩ := exists_ends_opsAt hne i j
  rw [hunkHeaderText, hfirst, hlast]
  simp [Hunk.header, hunkAt, hold, hnew, holdEnd, hnewEnd, Patch.hunkMark]

theorem hunkText_opsAt {ps : List Part} (hne : ps ≠ []) {i j : Nat} (gap : List FileLine)
    {ra rb : List FileLine} (ha : la.drop i = oldOf ps ++ ra) (hb : lb.drop j = newOf ps ++ rb)
    (hpa : ∀ l ∈ la, IsPlain l) (hpb : ∀ l ∈ lb, IsPlain l) :
    hunkText (writtenLines la) (writtenLines lb) (opsAt i j ps)
      = Text.unlines (hunkAt i j gap ps).rows := by
  rw [hunkText, hunkHeaderText_opsAt hne i j gap, flatMap_opText ha hb hpa hpb, Hunk.rows,
    Text.unlines_cons, List.append_assoc]
  rfl

/-- What follows lines that stand at a position. -/
theorem drop_add_of_drop_eq {α : Type} {l front back : List α} {i : Nat} (hi : i ≤ l.length)
    (h : l.drop i = front ++ back) :
    i + front.length ≤ l.length ∧ l.drop (i + front.length) = back := by
  have hlength := congrArg List.length h
  rw [List.length_drop, List.length_append] at hlength
  refine ⟨by omega, ?_⟩
  rw [← List.drop_drop, h, List.drop_left]

theorem hunkAt_new (i j : Nat) (gap : List FileLine) (ps : List Part) :
    (hunkAt i j gap ps).new = newOf ps := editsOf_new ps

/-- Groups that cover an edit script are hunks of a revision with that script. -/
theorem exists_hunks {i j : Nat} {gs : List (List Op)} {es : List Edit} (h : Covers i j gs es)
    (hi : i ≤ la.length) (hj : j ≤ lb.length) (ha : la.drop i = es.flatMap Edit.old)
    (hb : lb.drop j = es.flatMap Edit.new) (hpa : ∀ l ∈ la, IsPlain l) (hpb : ∀ l ∈ lb, IsPlain l)
    (hla : la.length < 2 ^ 64) (hlb : lb.length < 2 ^ 64) :
    ∃ (hs : List Revision.Hunk) (rest : List FileLine),
      (gs.map (hunkText (writtenLines la) (writtenLines lb))).flatten
        = Text.unlines (hs.flatMap Hunk.rows) ∧
      Numbered j hs ∧
      (hs.flatMap fun h => h.gap.map Edit.keep ++ h.edits) ++ rest.map Edit.keep = es ∧
      hs.length = gs.length ∧
      ∀ h ∈ hs.head?, ∃ ps, gs.head? = some (opsAt (i + h.gap.length) (j + h.gap.length) ps) ∧
        h.edits = editsOf ps := by
  induction h with
  | rest i j ls => exact ⟨[], ls, rfl, trivial, rfl, rfl, fun h hh => by cases hh⟩
  -- lines between groups are the gap of the next hunk, or of the rest when no hunk follows
  | gap ls _ ih =>
    have hkept : (ls.map Edit.keep).flatMap Edit.old = ls ∧
        (ls.map Edit.keep).flatMap Edit.new = ls := by
      simp [List.flatMap_map, Edit.old, Edit.new]
    rw [List.flatMap_append, hkept.1] at ha
    rw [List.flatMap_append, hkept.2] at hb
    obtain ⟨hi', ha'⟩ := drop_add_of_drop_eq hi ha
    obtain ⟨hj', hb'⟩ := drop_add_of_drop_eq hj hb
    obtain ⟨hs, rest, htext, hnum, hscript, hlength, hhead⟩ := ih hi' hj' ha' hb'
    cases hs with
    | nil =>
      refine ⟨[], ls ++ rest, htext, trivial, ?_, hlength, fun h hh => by cases hh⟩
      simpa using hscript
    | cons h hs =>
      refine ⟨{ h with gap := ls ++ h.gap } :: hs, rest, htext, ?_, ?_, hlength, ?_⟩
      · simpa [Numbered, Hunk.newStart, Hunk.new, Nat.add_assoc] using hnum
      · simpa using hscript
      · simpa [Nat.add_assoc] using hhead
  | @group i j gs es ps hne _ ih =>
    rw [List.flatMap_append, editsOf_old] at ha
    rw [List.flatMap_append, editsOf_new] at hb
    obtain ⟨hi', ha'⟩ := drop_add_of_drop_eq hi ha
    obtain ⟨hj', hb'⟩ := drop_add_of_drop_eq hj hb
    obtain ⟨hs, rest, htext, hnum, hscript, hlength, -⟩ := ih hi' hj' ha' hb'
    have hrange := range?_rangeText (Nat.le_add_right i (oldOf ps).length) (by omega)
    have hrange' := range?_rangeText (Nat.le_add_right j (newOf ps).length) (by omega)
    -- its header holds the positions at which the group stands, which are those of a hunk without gap
    refine ⟨hunkAt i j [] ps :: hs, rest, ?_, ⟨?_, ?_, ?_⟩, ?_, ?_, ?_⟩
    · rw [List.map_cons, List.flatten_cons, htext, hunkText_opsAt hne [] ha hb hpa hpb,
        List.flatMap_cons, Text.unlines_append]
    · simp [hunkAt, hrange]
    · rw [Hunk.newStart, hunkAt_new]
      simpa [hunkAt] using hrange'
    · rw [hunkAt_new]
      exact hnum
    · rw [List.flatMap_cons, List.append_assoc, hscript]
      rfl
    · rw [List.length_cons, List.length_cons, hlength]
    · intro h hh
      obtain rfl := Option.some_inj.1 hh
      exact ⟨ps, rfl, rfl⟩

/-- A hunk that shows where it stands: it starts with a kept line when lines are left alone before
it, and one of its edits is about an old line. -/
structure IsFramed (h : Revision.Hunk) : Prop where
  head_keeps : h.gap ≠ [] → ∃ l es, h.edits = .keep l :: es
  shows_old : h.old ≠ []

/-- The hunk of a group that shows where it stands. -/
theorem IsAnchored.isFramed {h : Revision.Hunk} {j : Nat} {ps : List Part}
    (hanchored : IsAnchored (opsAt h.gap.length j ps)) (hedits : h.edits = editsOf ps) :
    IsFramed h where
  head_keeps hgap := by
    cases ps with
    | nil =>
      obtain ⟨op, hop, -⟩ := hanchored.shows_old
      cases hop
    | cons p ps =>
      have hne : h.gap.length ≠ 0 := by simpa using hgap
      obtain ⟨hkind, hlength⟩ := hanchored.head_keeps _ rfl hne
      cases p with
      | keep ls =>
        cases ls with
        | nil => exact absurd rfl hlength
        | cons l ls => exact ⟨l, ls.map Edit.keep ++ editsOf ps, hedits⟩
      | delete os => cases hkind
      | insert ns => cases hkind
      | replace os ns => cases hkind
  shows_old := by
    obtain ⟨op, hop, hne⟩ := hanchored.shows_old
    obtain ⟨p, hp, i, j, rfl⟩ := exists_of_mem_opsAt hop
    rw [Hunk.old, hedits, editsOf_old]
    intro hnil
    exact hne (congrArg List.length (List.flatMap_eq_nil_iff.1 hnil p hp))

end Diff

namespace Text

open Revision

/-- No line of the old text starts with `-- `, or no line of the new text starts with `++ `, so that
no two rows of their diff read as the headers of a file. -/
def NoHeaders (old new : Text) : Prop :=
  (∀ l ∈ (LineBuffer.ofContent old).lines, ¬ ['-', '-', ' '] <+: l) ∨
    ∀ l ∈ (LineBuffer.ofContent new).lines, ¬ ['+', '+', ' '] <+: l

/-- No two edits between the versions read as the headers of a file. -/
theorem NoHeaders.readsAsHeader {ls ms : List FileLine} (hls : FileLine.IsSide ls)
    (hms : FileLine.IsSide ms) (h : NoHeaders (FileLine.content ls) (FileLine.content ms))
    {a b : Edit} (ha : a.old ⊆ ls) (hb : b.new ⊆ ms) : a.readsAsHeader b = false := by
  rw [NoHeaders, FileLine.ofContent_content hls, FileLine.ofContent_content hms] at h
  rw [Bool.eq_false_iff]
  intro hreads
  -- only a removal before an addition can read as headers
  cases a with
  | keep l => cases hreads
  | add l => cases hreads
  | remove l =>
    cases b with
    | keep m => cases hreads
    | remove m => cases hreads
    | add m =>
      obtain ⟨⟨-, hdash⟩, hplus⟩ : (l.ended = true ∧ ['-', '-', ' '] <+: l.text) ∧
          ['+', '+', ' '] <+: m.text := by
        simpa [Edit.readsAsHeader] using hreads
      have hl : l ∈ ls := ha (List.mem_cons_self ..)
      have hm : m ∈ ms := hb (List.mem_cons_self ..)
      rcases h with h | h
      · exact h l.text (List.mem_map_of_mem hl) hdash
      · exact h m.text (List.mem_map_of_mem hm) hplus

/-- The lines of an edit stand on the sides of the revision. -/
theorem subset_sides {r : Revision} {e : Edit} (he : e ∈ r.edits) :
    e.old ⊆ r.oldLines ∧ e.new ⊆ r.newLines := by
  have hes := (edits_sublist_script r).subset he
  rw [← script_old, ← script_new]
  exact ⟨fun l hl => List.mem_flatMap.2 ⟨e, hes, hl⟩, fun l hl => List.mem_flatMap.2 ⟨e, hes, hl⟩⟩

/-- A revision between texts without carriage returns whose patch is read as it is meant. -/
theorem wellFormed_of_noHeaders {r : Revision} (hpath : IsPlainPath r.path)
    (hcreates : r.creates = false) (hold : FileLine.IsSide r.oldLines)
    (hnew : FileLine.IsSide r.newLines) (hcrOld : cr ∉ FileLine.content r.oldLines)
    (hcrNew : cr ∉ FileLine.content r.newLines)
    (hheaders : NoHeaders (FileLine.content r.oldLines) (FileLine.content r.newLines))
    (hfits : r.newLines.length < 2 ^ 64) (hnum : Numbered 0 r.hunks)
    (hchain : r.script.IsChain fun a b => a.addsThenRemoves b = false) : r.WellFormed where
  plain_path := hpath
  old_of_creates h := absurd (hcreates.symm.trans h) Bool.false_ne_true
  old_side := hold
  new_side := hnew
  fits := hfits
  numbered := hnum
  no_cr e he hlast := by
    have hcr := List.mem_of_getLast? hlast
    obtain ⟨hsubOld, hsubNew⟩ := subset_sides he
    cases e with
    | keep l => exact hcrOld (FileLine.mem_content (hsubOld (List.mem_cons_self ..)) hcr)
    | remove l => exact hcrOld (FileLine.mem_content (hsubOld (List.mem_cons_self ..)) hcr)
    | add l => exact hcrNew (FileLine.mem_content (hsubNew (List.mem_cons_self ..)) hcr)
  no_header h hh := by
    apply List.Pairwise.isChain
    refine List.pairwise_of_forall_mem_list fun a ha b hb => ?_
    exact hheaders.readsAsHeader hold hnew (subset_sides (List.mem_flatMap.2 ⟨h, hh, ha⟩)).1
      (subset_sides (List.mem_flatMap.2 ⟨h, hh, hb⟩)).2
  no_reopen := no_reopen_of_isChain hnew hchain

/-- The text of a diff is its two headers and its hunks. -/
theorem unlines_headers (path rest : Text) :
    "--- a/".toList ++ path ++ "\n+++ b/".toList ++ path ++ lf :: rest
      = unlines [Patch.oldMark ++ 'a' :: '/' :: path, Patch.newMark ++ 'b' :: '/' :: path]
        ++ rest := by
  simp [Patch.oldMark_eq, Patch.newMark_eq, lf]

/-- The diff of two versions is the patch of a revision between their lines. -/
theorem exists_revision_of_sides {lineDiff : Array Text → Array Text → List Diff.Op}
    (path : Text) {old new : Text} {la lb : List FileLine} (hla : FileLine.IsSide la)
    (hlb : FileLine.IsSide lb) (hplainA : ∀ l ∈ la, Diff.IsPlain l)
    (hplainB : ∀ l ∈ lb, Diff.IsPlain l) (hold : FileLine.content la = old)
    (hnew : FileLine.content lb = new)
    (holdLines : (terminatedLines old).toArray = Diff.writtenLines la)
    (hnewLines : (terminatedLines new).toArray = Diff.writtenLines lb)
    (holdSize : old.length < 2 ^ 64) (hnewSize : new.length < 2 ^ 64) (hne : old ≠ new)
    (hscript : Diff.IsScript (terminatedLines old).toArray (terminatedLines new).toArray
      (lineDiff (terminatedLines old).toArray (terminatedLines new).toArray)) :
    ∃ r : Revision, r.path = path ∧ r.creates = false ∧ r.oldLines = la ∧ r.newLines = lb ∧
      Numbered 0 r.hunks ∧ (r.script.IsChain fun a b => a.addsThenRemoves b = false) ∧
      unifiedDiffBy lineDiff path old new = patch [r] ∧
      ∃ h hs, r.hunks = h :: hs ∧ (la ≠ [] → Diff.IsFramed h) := by
  subst hold hnew
  rw [holdLines, hnewLines] at hscript
  have hsizeA : la.length < 2 ^ 64 := Nat.lt_of_le_of_lt hla.length_le_content holdSize
  have hsizeB : lb.length < 2 ^ 64 := Nat.lt_of_le_of_lt hlb.length_le_content hnewSize
  obtain ⟨ps, hops, hpsOld, hpsNew, hproper⟩ :=
    Diff.exists_parts hla.lf_notMem hlb.lf_notMem hscript.partitions
  rw [List.drop_zero] at hpsOld hpsNew
  obtain ⟨hs, rest, htext, hnum, hedits, hlength, hhead⟩ :=
    Diff.exists_hunks (Diff.covers_groups Diff.contextLines ps) (Nat.zero_le _) (Nat.zero_le _)
      (by rw [List.drop_zero, Diff.editsOf_old, hpsOld])
      (by rw [List.drop_zero, Diff.editsOf_new, hpsNew]) hplainA hplainB hsizeA hsizeB
  -- the hunks and what follows the last one are a revision of the file
  let r : Revision := ⟨path, false, hs, rest⟩
  have hrscript : r.script = Diff.editsOf ps := hedits
  have hrold : r.oldLines = la := by rw [← script_old, hrscript, Diff.editsOf_old, hpsOld]
  have hrnew : r.newLines = lb := by rw [← script_new, hrscript, Diff.editsOf_new, hpsNew]
  have hchain : r.script.IsChain fun a b => a.addsThenRemoves b = false := by
    rw [hrscript]
    exact Diff.editsOf_isChain hproper (hops ▸ hscript.deletes_first)
  have hhunks : hs ≠ [] := by
    -- otherwise all lines are kept
    rintro rfl
    have : la = lb := by rw [← hrold, ← hrnew]; rfl
    exact hne (congrArg FileLine.content this)
  refine ⟨r, rfl, rfl, hrold, hrnew, hnum, hchain, ?_, ?_⟩
  · have hgroups : (Diff.groups Diff.contextLines (Diff.opsAt 0 0 ps)).isEmpty = false := by
      rw [List.isEmpty_eq_false_iff, ← List.length_pos_iff, ← hlength, List.length_pos_iff]
      exact hhunks
    rw [unifiedDiffBy, if_neg hne]
    simp only [holdLines, hnewLines, hops, hgroups, htext]
    rw [if_neg Bool.false_ne_true, unlines_headers, ← unlines_append, patch, List.flatMap_cons,
      List.flatMap_nil, List.append_nil]
    rfl
  · obtain ⟨h, hs', rfl⟩ := List.exists_cons_of_ne_nil hhunks
    obtain ⟨qs, hgroup, hqs⟩ := hhead h rfl
    rw [Nat.zero_add] at hgroup
    exact ⟨h, hs', rfl, fun hne =>
      (Diff.isAnchored_groups (by decide) hproper (hpsOld ▸ hne) _ hgroup).isFramed hqs⟩

/-- The diff of two versions is the patch of a revision between them. -/
theorem exists_revision {lineDiff : Array Text → Array Text → List Diff.Op} {path old new : Text}
    (hpath : IsPlainPath path) (hold : cr ∉ old) (hnew : cr ∉ new) (hheaders : NoHeaders old new)
    (holdSize : old.length < 2 ^ 64) (hnewSize : new.length < 2 ^ 64) (hne : old ≠ new)
    (hscript : Diff.IsScript (terminatedLines old).toArray (terminatedLines new).toArray
      (lineDiff (terminatedLines old).toArray (terminatedLines new).toArray)) :
    ∃ r : Revision, r.WellFormed ∧ r.path = path ∧ r.creates = false ∧
      FileLine.content r.oldLines = old ∧ FileLine.content r.newLines = new ∧
      unifiedDiffBy lineDiff path old new = patch [r] := by
  obtain ⟨la, hla, hcontentA, holdLines⟩ := exists_lines hold
  obtain ⟨lb, hlb, hcontentB, hnewLines⟩ := exists_lines hnew
  have hplain : ∀ {ls : List FileLine}, FileLine.IsSide ls → cr ∉ FileLine.content ls →
      ∀ l ∈ ls, Diff.IsPlain l := fun hls hcr l hl =>
    ⟨hls.lf_notMem l hl, fun _ hlast => hcr (FileLine.mem_content hl (List.mem_of_getLast? hlast)),
      hls.text_ne_nil l hl⟩
  obtain ⟨r, rfl, hcreates, rfl, rfl, hnum, hchain, hdiff, -⟩ :=
    exists_revision_of_sides path hla hlb (hplain hla (hcontentA ▸ hold))
      (hplain hlb (hcontentB ▸ hnew)) hcontentA hcontentB holdLines hnewLines holdSize hnewSize hne
      hscript
  have hsizeB : r.newLines.length < 2 ^ 64 :=
    Nat.lt_of_le_of_lt hlb.length_le_content (hcontentB ▸ hnewSize)
  refine ⟨r, ?_, rfl, hcreates, hcontentA, hcontentB, hdiff⟩
  rw [← hcontentA] at hold hheaders
  rw [← hcontentB] at hnew hheaders
  exact wellFormed_of_noHeaders hpath hcreates hla hlb hold hnew hheaders hsizeB hnum hchain

/-- The unified diff of two versions, applied to the first one, gives the second one; nothing is
reported, and nothing is written when they are equal. A text in memory is shorter than `2 ^ 64`. -/
theorem apply_unifiedDiffBy {σ : Type} (strict : Bool)
    {lineDiff : Array Text → Array Text → List Diff.Op} {path old new : Text}
    {load : σ → Text → Loaded × σ} (hpath : IsPlainPath path) (hold : cr ∉ old) (hnew : cr ∉ new)
    (hheaders : NoHeaders old new) (holdSize : old.length < 2 ^ 64)
    (hnewSize : new.length < 2 ^ 64)
    (hscript : Diff.IsScript (terminatedLines old).toArray (terminatedLines new).toArray
      (lineDiff (terminatedLines old).toArray (terminatedLines new).toArray))
    (hload : ∀ s, (load s path).1 = .content old) (s : σ) :
    (Patch.apply strict load (unifiedDiffBy lineDiff path old new) s).1
      = .ok ⟨if old = new then [] else [⟨path, new⟩], []⟩ := by
  -- equal versions have an empty diff
  by_cases heq : old = new
  · rw [unifiedDiffBy, if_pos heq, if_pos heq]
    exact @applyWith_patch σ _ exactBefore_word strict load [] (by simp) (by simp) List.nodup_nil s
  · obtain ⟨r, hr, rfl, hcreates, rfl, rfl, hdiff⟩ :=
      exists_revision hpath hold hnew hheaders holdSize hnewSize heq hscript
    have hsupplies : Supplies load r := by
      intro s
      rw [hcreates, if_neg Bool.false_ne_true]
      exact hload s
    rw [hdiff, if_neg heq]
    exact applyWith_patch exactBefore_word strict (by simpa using hr) (by simpa using hsupplies)
      (by simp) s

theorem apply_unifiedDiffBy_ops :
    (Patch.apply true (single ['p'] "a\nb\nc\nd\ne\nf\ng\nh\ni\nj".toList)
        (unifiedDiffBy Diff.ops ['p'] "a\nb\nc\nd\ne\nf\ng\nh\ni\nj".toList
          "x\nb\nc\nd\ne\nf\ng\nh\ni\nj\n".toList) ()).1
      = .ok ⟨[⟨['p'], "x\nb\nc\nd\ne\nf\ng\nh\ni\nj\n".toList⟩], []⟩ :=
  apply_unifiedDiffBy true (by decide) (by decide) (by decide)
    (.inl (by decide +kernel)) (by decide) (by decide) (by decide +kernel)
    (single_self _ _) ()

end Text

end Mend
