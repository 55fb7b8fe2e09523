import Mend.Proofs.Revision.CarriageReturns
import Mend.Proofs.Turn.Standalone

/-!
# Replies with carriage returns

A reply is read the same with a carriage return before each line feed (`Turn.parse_crlf`). The
delimiters and the texts of sections come from its lines, which lose their carriage returns; the
completion markers and the names of JSON end no line. A standalone JSON value is not read by lines,
but it is the same value since line ends stand between tokens only (`Json.read?_crlf`).
-/

namespace Mend

open Text (lf cr)

namespace Text

/-! ## Carriage returns before line feeds -/

theorem changesLineEnds_crlf : ChangesLineEnds fun t u => u = crlf t where
  nil h := h
  append h := ⟨_, _, h.trans (crlf_append _ _), rfl, rfl⟩
  keep _ hlf h := h.trans (crlf_cons_of_ne hlf [])
  lineEnd hc h := by
    rw [h]
    rcases hc with rfl | rfl
    · simp [crlf_cons_of_ne (by decide : cr ≠ lf)]
    · simp

/-- Taking the carriage returns away again loses line ends only. -/
theorem relined_crlf {t : Text} (h : cr ∉ t) : Relined (crlf t) t := by
  induction t with
  | nil => exact .nil
  | cons c t ih =>
    rw [List.mem_cons, not_or] at h
    by_cases hc : c = lf
    · rw [hc, crlf_cons_lf]
      exact .drop (.inl rfl) (fun d hd => (Option.some.inj hd).symm) (.keep lf (ih h.2))
    · rw [crlf_cons_of_ne hc]
      exact .keep c (ih h.2)

/-- What ends no line stands in both texts or in none. -/
theorem hasInfix_crlf {m t : Text} (hm : cr ∉ m ∧ lf ∉ m) (h : cr ∉ t) :
    hasInfix m (crlf t) = hasInfix m t := by
  rw [Bool.eq_iff_iff, hasInfix_iff, hasInfix_iff]
  exact ⟨fun hmem => changesLineEnds_relined.isInfix hm.1 hm.2 hmem (relined_crlf h),
    fun hmem => changesLineEnds_crlf.isInfix hm.1 hm.2 hmem rfl⟩

theorem trimStart_crlf (t : Text) : trimStart (crlf t) = crlf (trimStart t) := by
  induction t with
  | nil => rfl
  | cons c t ih =>
    by_cases hc : c = lf
    · rw [hc, crlf_cons_lf]
      exact ih
    · rw [crlf_cons_of_ne hc]
      cases hblank : isBlank c with
      | true =>
        rw [trimStart, trimStart, List.dropWhile_cons_of_pos hblank,
          List.dropWhile_cons_of_pos hblank]
        exact ih
      | false =>
        rw [trimStart, trimStart, List.dropWhile_cons_of_neg (by simp [hblank]),
          List.dropWhile_cons_of_neg (by simp [hblank]), crlf_cons_of_ne hc]

theorem trimEnd_crlf (t : Text) : trimEnd (crlf t) = crlf (trimEnd t) := by
  induction t using List.reverseRecOn with
  | nil => rfl
  | append_singleton t c ih =>
    rw [crlf_append]
    cases hblank : isBlank c with
    | true =>
      -- a line feed is a blank, and so is its carriage return
      have hlast : ∀ d ∈ crlf [c], isBlank d = true :=
        changesLineEnds_crlf.forall_mem (by decide) (by decide)
          (List.forall_mem_singleton.2 hblank) rfl
      rw [trimEnd_append_blanks hlast, trimEnd_append_blanks (List.forall_mem_singleton.2 hblank), ih]
    | false =>
      have hc : c ≠ lf := by
        rintro rfl
        revert hblank
        decide
      have hlast : crlf [c] = [c] := crlf_of_notMem (by simpa using hc.symm)
      rw [hlast, trimEnd_append_cons hblank, trimEnd_append_cons hblank, crlf_append,
        crlf_cons_of_ne hc]
      rfl

theorem trim_crlf (t : Text) : trim (crlf t) = crlf (trim t) := by
  rw [trim, trimStart_crlf, trimEnd_crlf, trim]

theorem lines_crlf_joinWith {ls : List Text} (hls : ∀ l ∈ ls, lf ∉ l ∧ cr ∉ l) :
    (crlf (joinWith [lf] ls)).lines = (joinWith [lf] ls).lines := by
  induction ls with
  | nil => rfl
  | cons l ls ih =>
    rw [List.forall_mem_cons] at hls
    obtain ⟨⟨hlf, hcr⟩, hls⟩ := hls
    cases ls with
    | nil => simp [joinWith, crlf_of_notMem hlf]
    | cons m ls =>
      -- the carriage return ends the first piece, and goes when the piece becomes a line
      have hlf' : lf ∉ l ++ [cr] := by simpa using ⟨hlf, by decide⟩
      have hgroup : crlf (joinWith [lf] (l :: m :: ls))
          = (l ++ [cr]) ++ lf :: crlf (joinWith [lf] (m :: ls)) := by
        simp [joinWith_cons_cons, crlf_of_notMem hlf]
      have hkept : dropCr (l ++ [cr]) = dropCr l := by
        rw [dropCr, dropSuffix_append, dropCr_eq_self fun hlast => hcr (List.mem_of_getLast? hlast)]
      rw [hgroup, lines_append_cons hlf', ih hls, hkept, joinWith_cons_cons, List.append_assoc,
        List.singleton_append, lines_append_cons hlf]

/-- The lines of a text do not tell how they end. -/
theorem lines_crlf {t : Text} (h : cr ∉ t) : (crlf t).lines = t.lines := by
  rw [← joinWith_splitOn lf t]
  exact lines_crlf_joinWith fun l hl =>
    ⟨sep_notMem_of_mem_splitOn hl, fun hmem => h (mem_of_mem_splitOn hl hmem)⟩

end Text

namespace Json

/-- A JSON value is read the same with other line ends. -/
theorem read?_crlf {t : Text} (h : cr ∉ t) : read? (Text.crlf t) = read? t := by
  -- the reader is its grammar, which minds no line ends in either direction
  refine Option.ext fun v => ?_
  rw [read?_eq_some_iff, read?_eq_some_iff]
  exact ⟨fun hv => hv.changed Text.changesLineEnds_relined (Text.relined_crlf h),
    fun hv => hv.changed Text.changesLineEnds_crlf rfl⟩

end Json

namespace Turn

theorem ofJson?_crlf {raw : Text} (h : cr ∉ raw) : ofJson? raw.crlf = ofJson? raw := by
  have htrim : cr ∉ raw.trim := fun hmem => h (Text.mem_of_mem_trim hmem)
  have hopen : (Text.crlf raw.trim).head?.any Nesting.isOpener
      = raw.trim.head?.any Nesting.isOpener := by
    -- a line feed is no bracket, nor is the carriage return in front of it
    cases raw.trim with
    | nil => rfl
    | cons c t =>
      by_cases hc : c = lf
      · rw [hc]
        rfl
      · rw [Text.crlf_cons_of_ne hc]
        rfl
  have hnames : ∀ name ∈ standaloneNames, cr ∉ name ∧ lf ∉ name := by decide
  have hany : (standaloneNames.any fun name => Text.hasInfix name (Text.crlf raw.trim))
      = standaloneNames.any fun name => Text.hasInfix name raw.trim := by
    rw [Bool.eq_iff_iff, List.any_eq_true, List.any_eq_true]
    refine exists_congr fun name => and_congr_right fun hname => ?_
    rw [Text.hasInfix_crlf (hnames name hname) htrim]
  rw [ofJson?_eq_ite, ofJson?_eq_ite, Text.trim_crlf, hopen, hany, Json.read?_crlf htrim]

/-- A reply is read the same with carriage returns before its line feeds. -/
theorem parse_crlf {raw : Text} (h : cr ∉ raw) : parse raw.crlf = parse raw := by
  rw [parse, parse, Text.hasInfix_crlf (by decide) h, Text.hasInfix_crlf (by decide) h,
    ofJson?_crlf h, ofDelimited, ofDelimited, Text.lines_crlf h]

/-- A JSON value over several lines, which is read without delimiters. -/
def brokenValue : Text := "[\x7b\"path\":\n  \"a.rs\"\x7d,\n \"b.rs\"]\n".toList

theorem parse_crlf_sample : cr ∉ brokenValue ∧
    ofJson? brokenValue = some { requests := [.file "a.rs".toList, .file "b.rs".toList] } ∧
    parse brokenValue.crlf = parse brokenValue := by
  have hcr : cr ∉ brokenValue := by decide
  exact ⟨hcr, by decide +kernel, parse_crlf hcr⟩

end Turn

end Mend
