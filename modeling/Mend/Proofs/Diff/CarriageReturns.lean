import Mend.Proofs.Diff.RoundTrip
import Mend.Proofs.Revision.CarriageReturns

/-!
# Diff and patch of files with carriage returns

When each line of two versions ends with a carriage return and a line feed, their unified diff shows
the carriage returns, but a patch is read without them, while the lines of a file keep them. So the
diff cannot be applied in strict mode (`Text.apply_unifiedDiffBy_crlf`), unless the first version
has no such line: then the lines that are added lose their carriage returns.

The diff is read as the diff of the versions without carriage returns (`Text.exists_crlf_revision`).
Its first hunk shows an old line that a line feed ends (`Diff.IsFramed.exists_ended`), and that line
is not found.
-/

namespace Mend

open Text (lf cr)
open Revision

namespace Text

/-! ## Lines -/

theorem terminatedFrom_crlf {line t : Text} (hline : lf ∉ line) (hcr : cr ∉ t) :
    terminatedFrom line (crlf t) = (terminatedFrom line t).map crlf := by
  induction t generalizing line with
  | nil =>
    rw [crlf_nil, terminatedFrom]
    split
    · rfl
    · rw [List.map_singleton, crlf_of_notMem (by simpa using hline)]
  | cons c t ih =>
    rw [List.mem_cons, not_or] at hcr
    by_cases hc : c = lf
    · subst hc
      have hplain : terminatedFrom line (lf :: t)
          = (lf :: line).reverse :: terminatedFrom [] t := by
        simp [terminatedFrom, lf]
      have hboth : terminatedFrom line (cr :: lf :: crlf t)
          = (lf :: cr :: line).reverse :: terminatedFrom [] (crlf t) := by
        rw [cr, lf, terminatedFrom]
        rfl
      have hreverse : lf ∉ line.reverse := by simpa using hline
      rw [crlf_cons_lf, hboth, hplain, List.map_cons, ih List.not_mem_nil hcr.2, List.reverse_cons,
        List.reverse_cons, List.reverse_cons, crlf_append, crlf_of_notMem hreverse]
      simp
    -- the character joins the line that is being read
    · have hline' : lf ∉ c :: line := by
        rw [List.mem_cons, not_or]
        exact ⟨Ne.symm hc, hline⟩
      have hjoin : ∀ u, terminatedFrom line (c :: u) = terminatedFrom (c :: line) u := by
        intro u
        rw [terminatedFrom]
        · simp [hc, Ne.symm hcr.1]
        · rintro rest rfl
          exact absurd rfl hcr.1
      rw [crlf_cons_of_ne hc, hjoin, hjoin, ih hline' hcr.2]

/-- The lines of a text with carriage returns before its line feeds. -/
theorem exists_lines_crlf {t : Text} (hcr : cr ∉ t) :
    ∃ ls, FileLine.IsSide ls ∧ FileLine.content ls = t ∧
      (terminatedLines (crlf t)).toArray = Diff.writtenLines (ls.map FileLine.withCr) := by
  obtain ⟨ls, hside, hcontent, hlines⟩ := exists_lines hcr
  refine ⟨ls, hside, hcontent, ?_⟩
  have hwritten : ∀ l ∈ ls, crlf l.written = l.withCr.written :=
    fun l hl => (FileLine.written_withCr (hside.lf_notMem l hl)).symm
  have hlist : terminatedLines t = ls.map FileLine.written := congrArg Array.toList hlines
  have hcrlf := terminatedFrom_crlf List.not_mem_nil hcr
  rw [Diff.writtenLines, List.map_map, terminatedLines, hcrlf, ← terminatedLines, hlist,
    List.map_map]
  exact congrArg List.toArray (List.map_congr_left hwritten)

end Text

/-! ## The first old line of a diff -/

/-- The edits up to the first one that is about an old line. -/
theorem exists_first_old {edits : List Edit} (h : edits.flatMap Edit.old ≠ []) :
    ∃ added e es l, edits = added ++ e :: es ∧ added.flatMap Edit.old = [] ∧ e.old = [l] := by
  induction edits with
  | nil => exact absurd rfl h
  | cons e es ih =>
    cases e with
    | keep l => exact ⟨[], .keep l, es, l, rfl, rfl, rfl⟩
    | remove l => exact ⟨[], .remove l, es, l, rfl, rfl, rfl⟩
    | add m =>
      obtain ⟨added, e, es', l, rfl, hadded, he⟩ := ih (by simpa [Edit.old] using h)
      exact ⟨.add m :: added, e, es', l, rfl, by simpa [Edit.old] using hadded, he⟩

/-- The first old line that is shown ends with a line feed, when the versions differ and some old
line does. -/
theorem Diff.IsFramed.exists_ended {r : Revision} {h : Revision.Hunk} {hs : List Revision.Hunk}
    (hframed : Diff.IsFramed h) (hhunks : r.hunks = h :: hs) (hold : FileLine.IsSide r.oldLines)
    (hnew : FileLine.IsSide r.newLines) (hne : r.oldLines ≠ r.newLines)
    (hended : ∃ l ∈ r.oldLines, l.ended = true) :
    ∃ added e es l, h.edits = added ++ e :: es ∧ added.flatMap Edit.old = [] ∧ e.old = [l] ∧
      l.ended = true := by
  obtain ⟨added, e, es, l, hedits, hadded, he⟩ := exists_first_old hframed.shows_old
  refine ⟨added, e, es, l, hedits, hadded, he, ?_⟩
  by_contra hopen
  have hopen' : l.ended = false := by simpa using hopen
  -- otherwise it is the last old line
  have holdLines : r.oldLines = h.gap ++ l ::
      (es.flatMap Edit.old ++ hs.flatMap (fun h => h.gap ++ h.old) ++ r.rest) := by
    simp [oldLines, hhunks, Hunk.old, hedits, hadded, he]
  have hlast : es.flatMap Edit.old ++ hs.flatMap (fun h => h.gap ++ h.old) ++ r.rest = [] := by
    have hpairwise := hold.ended_of_later
    rw [holdLines, List.pairwise_append] at hpairwise
    exact FileLine.eq_nil_of_not_ended hpairwise.2.1 hopen'
  rw [hlast] at holdLines
  by_cases hgap : h.gap = []
  · -- no old line is left that a line feed ends
    rw [hgap, List.nil_append] at holdLines
    obtain ⟨m, hm, hmended⟩ := hended
    rw [holdLines, List.mem_singleton] at hm
    rw [← hm, hmended] at hopen'
    cases hopen'
  · -- it is kept, so it is the last new line too
    obtain ⟨m, es', hkeep⟩ := hframed.head_keeps hgap
    have hnewLines : r.newLines = h.gap ++ m ::
        (es'.flatMap Edit.new ++ hs.flatMap (fun h => h.gap ++ h.new) ++ r.rest) := by
      simp [newLines, hhunks, Hunk.new, hkeep, Edit.new]
    obtain rfl : m = l := by
      have hshown := congrArg (List.flatMap Edit.old) (hkeep.symm.trans hedits)
      rw [List.flatMap_cons, List.flatMap_append, List.flatMap_cons, hadded, he] at hshown
      exact (List.cons.inj hshown).1
    have hpairwise := hnew.ended_of_later
    rw [hnewLines, List.pairwise_append] at hpairwise
    rw [FileLine.eq_nil_of_not_ended hpairwise.2.1 hopen'] at hnewLines
    exact hne (holdLines.trans hnewLines.symm)

namespace Text

/-! ## Diffs -/

/-- The diff of versions whose lines end with carriage returns and line feeds is read as a diff of
the versions without carriage returns. -/
theorem exists_crlf_revision {lineDiff : Array Text → Array Text → List Diff.Op}
    {path old new : Text} (hpath : IsPlainPath path) (hold : cr ∉ old) (hnew : cr ∉ new)
    (hheaders : NoHeaders old new) (holdSize : (crlf old).length < 2 ^ 64)
    (hnewSize : (crlf new).length < 2 ^ 64) (hne : old ≠ new)
    (hscript : Diff.IsScript (terminatedLines (crlf old)).toArray
      (terminatedLines (crlf new)).toArray
      (lineDiff (terminatedLines (crlf old)).toArray (terminatedLines (crlf new)).toArray)) :
    ∃ r : Revision, r.WellFormed ∧ r.path = path ∧ r.creates = false ∧
      FileLine.content r.oldLines = old ∧ FileLine.content r.newLines = new ∧
      r.oldLines.length < 2 ^ 64 ∧
      Patch.patchLines (unifiedDiffBy lineDiff path (crlf old) (crlf new))
        = Patch.patchLines (patch [r]) ∧
      (lf ∈ old → ∃ h hs added e es l, r.hunks = h :: hs ∧ h.edits = added ++ e :: es ∧
        added.flatMap Edit.old = [] ∧ e.old = [l] ∧ l.ended = true) := by
  obtain ⟨la, hla, rfl, holdLines⟩ := exists_lines_crlf hold
  obtain ⟨lb, hlb, rfl, hnewLines⟩ := exists_lines_crlf hnew
  have hcontentA := FileLine.content_withCr hla.lf_notMem
  have hcontentB := FileLine.content_withCr hlb.lf_notMem
  have hnocr : ∀ {ls : List FileLine}, cr ∉ FileLine.content ls → ∀ l ∈ ls, cr ∉ l.text :=
    fun hcr l hl hmem => hcr (FileLine.mem_content hl hmem)
  have hplain : ∀ {ls : List FileLine}, FileLine.IsSide ls → cr ∉ FileLine.content ls →
      ∀ l ∈ ls.map FileLine.withCr, Diff.IsPlain l := by
    intro ls hls hcr l hl
    refine ⟨hls.withCr.lf_notMem l hl, fun hended hlast => ?_, hls.withCr.text_ne_nil l hl⟩
    obtain ⟨m, hm, rfl⟩ := List.mem_map.1 hl
    rw [FileLine.withCr_ended] at hended
    rw [FileLine.withCr_of_not_ended hended] at hlast
    exact hnocr hcr m hm (List.mem_of_getLast? hlast)
  have hne' : crlf (FileLine.content la) ≠ crlf (FileLine.content lb) :=
    fun heq => hne ((crlf_inj hold hnew).1 heq)
  obtain ⟨r, rfl, hcreates, hrold, hrnew, hnum, hchain, hdiff, h, hs, hhunks, hframed⟩ :=
    exists_revision_of_sides path hla.withCr hlb.withCr (hplain hla hold) (hplain hlb hnew)
      hcontentA hcontentB holdLines hnewLines holdSize hnewSize hne' hscript
  have hbareOld : r.withoutCr.oldLines = la := by
    rw [oldLines_withoutCr, hrold, FileLine.map_withoutCr_withCr (hnocr hold)]
  have hbareNew : r.withoutCr.newLines = lb := by
    rw [newLines_withoutCr, hrnew, FileLine.map_withoutCr_withCr (hnocr hnew)]
  have hsize : ∀ {ls : List FileLine}, FileLine.IsSide ls →
      (crlf (FileLine.content ls)).length < 2 ^ 64 → ls.length < 2 ^ 64 := by
    intro ls hls hlt
    have hle := hls.withCr.length_le_content
    rw [FileLine.content_withCr hls.lf_notMem, List.length_map] at hle
    exact Nat.lt_of_le_of_lt hle hlt
  have hr : r.withoutCr.WellFormed := by
    rw [← hbareOld] at hla hold hheaders
    rw [← hbareNew] at hlb hnew hheaders
    refine wellFormed_of_noHeaders hpath hcreates hla hlb hold hnew hheaders ?_
      (numbered_withoutCr hnum) ?_
    · rw [hbareNew] at hlb ⊢
      exact hsize hlb hnewSize
    · rw [script_withoutCr]
      exact isChain_withoutCr hchain
  refine ⟨r.withoutCr, hr, rfl, hcreates, by rw [hbareOld], by rw [hbareNew], ?_, ?_, ?_⟩
  · rw [hbareOld]
    exact hsize hla holdSize
  · rw [hdiff, patchLines_patch_withoutCr hr]
  · intro hlf
    obtain ⟨m, hm, hended⟩ := FileLine.exists_ended_of_lf_mem hla.lf_notMem hlf
    have hneLines : r.oldLines ≠ r.newLines := by
      rw [hrold, hrnew]
      intro heq
      exact hne' (by rw [← hcontentA, heq, hcontentB])
    have hsome : la.map FileLine.withCr ≠ [] := by
      simpa using List.ne_nil_of_mem hm
    obtain ⟨added, e, es, l, hedits, hadded, he, hl⟩ :=
      (hframed hsome).exists_ended hhunks (hrold ▸ hla.withCr) (hrnew ▸ hlb.withCr) hneLines
        ⟨m.withCr, hrold ▸ List.mem_map_of_mem hm, by rwa [FileLine.withCr_ended]⟩
    refine ⟨h.withoutCr, hs.map Hunk.withoutCr, added.map Edit.withoutCr, e.withoutCr,
      es.map Edit.withoutCr, l.withoutCr, by simp [withoutCr, hhunks], by simp [hedits], ?_, ?_, hl⟩
    · rw [List.flatMap_map]
      simp only [Edit.old_withoutCr]
      rw [← List.map_flatMap, hadded, List.map_nil]
    · rw [Edit.old_withoutCr, he, List.map_singleton]

/-- The unified diff of two versions with carriage returns before their line feeds, applied to the
first one in strict mode. It gives the second one exactly when nothing changes or neither version has
a line feed. A version without line feeds takes the new lines without their carriage returns, and in
any other the first old line that is shown is not found. -/
theorem apply_unifiedDiffBy_crlf {σ : Type} {lineDiff : Array Text → Array Text → List Diff.Op}
    {path old new : Text} {load : σ → Text → Loaded × σ} (hpath : IsPlainPath path)
    (hold : cr ∉ old) (hnew : cr ∉ new) (hheaders : NoHeaders old new)
    (holdSize : (crlf old).length < 2 ^ 64) (hnewSize : (crlf new).length < 2 ^ 64)
    (hscript : Diff.IsScript (terminatedLines (crlf old)).toArray
      (terminatedLines (crlf new)).toArray
      (lineDiff (terminatedLines (crlf old)).toArray (terminatedLines (crlf new)).toArray))
    (hload : ∀ s, (load s path).1 = .content (crlf old)) (s : σ) :
    ((Patch.apply true load (unifiedDiffBy lineDiff path (crlf old) (crlf new)) s).1
        = .ok ⟨if old = new then [] else [⟨path, crlf new⟩], []⟩
      ↔ old = new ∨ lf ∉ old ∧ lf ∉ new) ∧
    (old ≠ new → lf ∉ old →
      (Patch.apply true load (unifiedDiffBy lineDiff path (crlf old) (crlf new)) s).1
        = .ok ⟨[⟨path, new⟩], []⟩) ∧
    (old ≠ new → lf ∈ old → ∃ err,
      (Patch.apply true load (unifiedDiffBy lineDiff path (crlf old) (crlf new)) s).1 = .error err ∧
        err.IsMissingCr path) := by
  by_cases heq : old = new
  · subst heq
    have hempty := @applyWith_patch σ _ exactBefore_word true load [] (by simp) (by simp)
      List.nodup_nil s
    refine ⟨⟨fun _ => .inl rfl, fun _ => ?_⟩, fun h => absurd rfl h, fun h => absurd rfl h⟩
    rw [unifiedDiffBy, if_pos rfl, if_pos rfl]
    exact hempty
  · obtain ⟨r, hr, rfl, hcreates, rfl, rfl, hsize, hlines, hshown⟩ :=
      exists_crlf_revision hpath hold hnew hheaders holdSize hnewSize heq hscript
    rw [Patch.apply_congr_patchLines hlines, if_neg heq]
    have hlost : lf ∉ FileLine.content r.oldLines →
        (Patch.apply true load (patch [r]) s).1
          = .ok ⟨[⟨r.path, FileLine.content r.newLines⟩], []⟩ := by
      intro hlf
      have hsupplies : Supplies load r := by
        intro s
        rw [hcreates, if_neg Bool.false_ne_true, hload s, crlf_of_notMem hlf]
      exact apply_patch true (by simpa using hr) (by simpa using hsupplies) (by simp) s
    have hrefused : lf ∈ FileLine.content r.oldLines → ∃ err,
        (Patch.apply true load (patch [r]) s).1 = .error err ∧ err.IsMissingCr r.path := by
      intro hlf
      obtain ⟨h, hs, added, e, es, l, hhunks, hedits, hadded, he, hended⟩ := hshown hlf
      have hload' : ∀ s, (load s r.path).1
          = .content (FileLine.content (r.oldLines.map FileLine.withCr)) := by
        intro s
        rw [FileLine.content_withCr hr.old_side.lf_notMem, hload s]
      exact apply_missingCr hr hcreates hsize hload' hhunks hedits hadded he hended s
    refine ⟨⟨fun happly => .inr ?_, fun h => ?_⟩, fun _ => hlost, fun _ => hrefused⟩
    · have hlf : lf ∉ FileLine.content r.oldLines := by
        intro hlf
        obtain ⟨err, hfail, -⟩ := hrefused hlf
        rw [hfail] at happly
        cases happly
      refine ⟨hlf, (crlf_eq_self_iff hnew).1 ?_⟩
      rw [hlost hlf] at happly
      simpa using happly.symm
    · obtain ⟨hlfOld, hlfNew⟩ := h.resolve_left heq
      rw [hlost hlfOld, crlf_of_notMem hlfNew]

theorem apply_unifiedDiffBy_crlf_ops :
    ∃ err, (Patch.apply true (single ['p'] (crlf "a\nb".toList))
        (unifiedDiffBy Diff.ops ['p'] (crlf "a\nb".toList) (crlf "a\nc\n".toList)) ()).1
          = .error err ∧ err.IsMissingCr ['p'] :=
  (apply_unifiedDiffBy_crlf (by decide) (by decide) (by decide) (.inl (by decide +kernel))
    (by decide) (by decide) (by decide +kernel) (single_self _ _) ()).2.2 (by decide) (by decide)

/-- The diff of a changed line that ends with a carriage return and a line feed is refused. -/
theorem apply_unifiedDiff_crlf_ne :
    IsPlainPath ['p'] ∧ cr ∉ ['a', lf] ∧ cr ∉ ['b', lf] ∧ NoHeaders ['a', lf] ['b', lf] ∧
      (Patch.apply true (single ['p'] (crlf ['a', lf]))
        (unifiedDiff ['p'] (crlf ['a', lf]) (crlf ['b', lf])) ()).1
          = .error (.removalMismatch 4 ['p'] ['a'] (some ['a', cr])) :=
  ⟨by decide, by decide, by decide, .inl (by decide +kernel), by decide +kernel⟩

end Text

end Mend
