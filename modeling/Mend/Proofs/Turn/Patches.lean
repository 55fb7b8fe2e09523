import Mathlib.Data.List.Basic
import Mathlib.Data.List.Induction
import Mend.Proofs.Patch.Composition
import Mend.Proofs.Patch.Lines
import Mend.Proofs.Text.LineEnds
import Mend.Proofs.Turn.Rereading
import Mend.Proofs.Turn.Sections

/-!
# Patches in replies

A reply may hold a patch in a section and nothing else (`Turn.patchReply`). The section is read line
by line, each line without the carriage returns at its end, and trimmed, while in a patch blanks at
the end of a line are content. So the patch that is read is not always the one that was sent
(`Turn.parse_patchReply_ne`). `Turn.parse_patchReply` says what is read and when the engine does the
same with it: always when no line ends with a carriage return and the last one with no blank
(`Patch.IsKept`), and without the strict mode also when blank lines follow such lines
(`Patch.IsKeptButBlanks`).

What is lost is found by lengths: the text of the lines that are read holds no more characters than
the section, and the section no more than the lines that were sent (`Patch.patchLines_trimEnd_iff`).
-/

namespace Mend

open Text (lf cr)

namespace Text

/-! ## Lines that get shorter -/

/-- Blank lines at the end are trimmed. -/
theorem trimEnd_joinWith_append_blanks {ls blank : List Text} (hne : ls ≠ [])
    (hblank : ∀ l ∈ blank, ∀ c ∈ l, isBlank c = true) :
    trimEnd (joinWith [lf] (ls ++ blank)) = trimEnd (joinWith [lf] ls) := by
  induction blank using List.reverseRecOn with
  | nil => rw [List.append_nil]
  | append_singleton blank l ih =>
    rw [List.forall_mem_append, List.forall_mem_singleton] at hblank
    have hlf : ∀ c ∈ [lf], isBlank c = true := List.forall_mem_singleton.2 (by decide)
    rw [← List.append_assoc, joinWith_append_singleton, trimEnd_append_blanks hblank.2,
      unlines_eq_joinWith (List.append_ne_nil_of_left_ne_nil hne blank), trimEnd_append_blanks hlf,
      ih hblank.1]

/-- A text without blanks at its end does not end with a line feed. -/
theorem dropSuffix_of_trimEnd {t : Text} (h : trimEnd t = t) : dropSuffix [lf] t = t := by
  apply dropSuffix_eq_self
  rintro ⟨front, rfl⟩
  have hlf : ∀ c ∈ [lf], isBlank c = true := List.forall_mem_singleton.2 (by decide)
  rw [trimEnd_append_blanks hlf] at h
  have hlength := (trimEnd_sublist front).length_le
  rw [h, List.length_append, List.length_singleton] at hlength
  omega

/-- The first character of a text is kept when it ends no line. -/
theorem exists_joinWith_lines {c : Char} (hlf : c ≠ lf) (hcr : c ≠ cr) (t : Text) :
    ∃ u, joinWith [lf] ((lines (c :: t)).map dropCr) = c :: u := by
  obtain ⟨first, rest, hsplit⟩ := List.exists_cons_of_ne_nil (List.splitOn_ne_nil lf t)
  have hpieces : (c :: t).splitOn lf = (c :: first) :: rest := by
    rw [List.splitOn_cons_eq_if_modifyHead, hsplit, if_neg (by simpa using hlf)]
    rfl
  rw [lines, hpieces]
  cases rest with
  | nil => exact ⟨dropCr first, by simp [linesOfPieces, joinWith, dropCr_cons hcr]⟩
  | cons piece rest =>
    rw [linesOfPieces, List.map_cons, dropCr_cons hcr, dropCr_cons hcr]
    · cases (linesOfPieces (piece :: rest)).map dropCr with
      | nil => exact ⟨dropCr (dropCr first), by simp [joinWith]⟩
      | cons l ls =>
        exact ⟨dropCr (dropCr first) ++ [lf] ++ joinWith [lf] (l :: ls), joinWith_cons_cons ..⟩
    · simp

end Text

namespace Patch

/-! ## The lines of a patch in a section -/

/-- The lines of a section that holds a patch are the lines of the patch without carriage returns at
their ends, but for blanks at the end. -/
theorem trimEnd_joinWith_lines {p : Text} (hne : p ≠ []) :
    Text.trimEnd (Text.joinWith [lf] (p.lines.map Text.dropCr))
      = Text.trimEnd (Text.joinWith [lf] ((patchLines p).map Text.dropCr)) := by
  rcases List.eq_nil_or_concat p with rfl | ⟨body, last, rfl⟩
  · exact absurd rfl hne
  rw [List.concat_eq_append] at hne ⊢
  by_cases hlast : last = lf
  · -- a line feed at the end is followed by an empty piece, which is no line
    subst hlast
    have hsplit : (body ++ [lf]).splitOn lf = body.splitOn lf ++ [[]] := by
      rw [Text.splitOn_append_cons, List.splitOn_nil]
    rw [Text.lines, hsplit, Text.linesOfPieces_concat, patchLines, Text.dropSuffix_append]
    simp
  · have hbody : Text.dropSuffix [lf] (body ++ [last]) = body ++ [last] := by
      apply Text.dropSuffix_eq_self
      rintro ⟨front, heq⟩
      exact hlast (List.singleton_inj.1 (List.append_inj_right' heq rfl)).symm
    rw [patchLines, hbody]
    obtain ⟨front, piece, hsplit⟩ : ∃ front piece,
        (body ++ [last]).splitOn lf = front ++ [piece] :=
      ⟨_, _, (List.dropLast_concat_getLast (List.splitOn_ne_nil lf _)).symm⟩
    rw [Text.lines, hsplit, Text.linesOfPieces_concat]
    -- the last line keeps its carriage return when it is read, and loses it when it is trimmed
    have hpiece : (if piece.isEmpty then [] else [piece]) = [piece] := by
      rw [if_neg]
      intro hempty
      have hjoin := congrArg (Text.joinWith [lf]) hsplit
      rw [Text.joinWith_splitOn, List.isEmpty_iff.1 hempty, Text.joinWith_append_singleton,
        List.append_nil] at hjoin
      rcases List.eq_nil_or_concat front with rfl | ⟨ls, l, rfl⟩
      · exact hne hjoin
      · have hend := congrArg List.getLast? hjoin
        simp [Text.unlines] at hend
        exact hlast hend
    rw [hpiece, List.map_append, List.map_append, List.map_append, List.map_cons, List.map_cons,
      List.map_nil, List.map_nil, Text.joinWith_append_singleton, Text.joinWith_append_singleton]
    exact (Text.trimEnd_append_dropCr _ (Text.dropCr piece)).symm

/-- Lines that a section gives back. -/
structure IsKept (ls : List Text) : Prop where
  getLast?_ne : ∀ l ∈ ls, l.getLast? ≠ some cr
  trimEnd_eq : Text.trimEnd (Text.joinWith [lf] ls) = Text.joinWith [lf] ls

instance (ls : List Text) : Decidable (IsKept ls) :=
  decidable_of_iff ((∀ l ∈ ls, l.getLast? ≠ some cr) ∧
      Text.trimEnd (Text.joinWith [lf] ls) = Text.joinWith [lf] ls)
    ⟨fun ⟨hcr, htrim⟩ => ⟨hcr, htrim⟩, fun h => ⟨h.getLast?_ne, h.trimEnd_eq⟩⟩

/-- Lines that a section gives back but for blank lines at the end. -/
def IsKeptButBlanks (ls : List Text) : Prop :=
  ∃ kept blank, ls = kept ++ blank ∧ kept ≠ [] ∧ IsKept kept ∧
    ∀ l ∈ blank, ∀ c ∈ l, Text.isBlank c = true

theorem IsKept.map_dropCr {ls : List Text} (h : IsKept ls) : ls.map Text.dropCr = ls :=
  calc ls.map Text.dropCr = ls.map id :=
        List.map_congr_left fun l hl => Text.dropCr_eq_self (h.getLast?_ne l hl)
    _ = ls := List.map_id ls

/-- Lines that are written one after the other are the lines of a patch. -/
theorem IsKept.patchLines_joinWith {ls : List Text} (h : IsKept ls) (hne : ls ≠ [])
    (hlf : ∀ l ∈ ls, lf ∉ l) : patchLines (Text.joinWith [lf] ls) = ls := by
  have hsplit : (Text.joinWith [lf] ls).splitOn lf = ls := List.splitOn_intercalate lf hlf hne
  rw [patchLines, Text.dropSuffix_of_trimEnd h.trimEnd_eq, hsplit, h.map_dropCr]

theorem patchLines_ne_nil (p : Text) : patchLines p ≠ [] := by
  simp [patchLines]

/-- The lines of a patch hold no characters that the patch does not hold. -/
theorem joinWith_patchLines_sublist (p : Text) :
    (Text.joinWith [lf] (patchLines p)).Sublist p := by
  have hlines := Text.relined_map_dropCr ((Text.dropSuffix [lf] p).splitOn lf)
  rw [Text.joinWith_splitOn] at hlines
  exact hlines.sublist.trans (Text.dropSuffix_sublist [lf] p)

/-- Trimmed lines are the lines that they were exactly when nothing was lost. -/
theorem patchLines_trimEnd_iff {ls : List Text} (hne : ls ≠ []) (hlf : ∀ l ∈ ls, lf ∉ l) :
    patchLines (Text.trimEnd (Text.joinWith [lf] (ls.map Text.dropCr))) = ls ↔ IsKept ls := by
  constructor
  · intro h
    -- each of the texts between the lines and the lines again holds no more than the one before
    have hdrop := (Text.relined_map_dropCr ls).sublist
    have htrim := Text.trimEnd_sublist (Text.joinWith [lf] (ls.map Text.dropCr))
    have hback := joinWith_patchLines_sublist
      (Text.trimEnd (Text.joinWith [lf] (ls.map Text.dropCr)))
    rw [h] at hback
    have hjoin : Text.joinWith [lf] (ls.map Text.dropCr) = Text.joinWith [lf] ls :=
      hdrop.antisymm (hback.trans htrim)
    rw [hjoin] at hback htrim
    have hmap : ls.map Text.dropCr = ls := by
      have hne' : ls.map Text.dropCr ≠ [] := by simpa using hne
      have hlf' : ∀ l ∈ ls.map Text.dropCr, lf ∉ l := by
        intro l hl
        obtain ⟨piece, hpiece, rfl⟩ := List.mem_map.1 hl
        exact fun hmem => hlf piece hpiece ((Text.dropCr_sublist piece).subset hmem)
      calc ls.map Text.dropCr
          = (Text.joinWith [lf] (ls.map Text.dropCr)).splitOn lf :=
            (List.splitOn_intercalate lf hlf' hne').symm
        _ = (Text.joinWith [lf] ls).splitOn lf := by rw [hjoin]
        _ = ls := List.splitOn_intercalate lf hlf hne
    refine ⟨fun l hl hcr => ?_, htrim.antisymm hback⟩
    have hkeep : Text.dropCr l = l := List.map_inj_left.1 (hmap.trans (List.map_id ls).symm) l hl
    have hlost := Text.count_dropCr_lt hcr
    rw [hkeep] at hlost
    exact Nat.lt_irrefl _ hlost
  · intro h
    rw [h.map_dropCr, h.trimEnd_eq, h.patchLines_joinWith hne hlf]

/-! ## Blank lines at the end of a patch -/

/-- A blank line is context or nothing. -/
theorem classify_blank {l : Text} (hl : ∀ c ∈ l, Text.isBlank c = true) (st : LineState) (n : Nat)
    (next : Option Text) : ∃ kind, classify st n l next = .ok kind ∧
      ((∃ text, kind = .context text) ∨ kind = .other) := by
  cases l with
  | nil =>
    rw [classify]
    cases st.inHunk with
    | true => exact ⟨_, rfl, .inl ⟨_, rfl⟩⟩
    | false => exact ⟨_, rfl, .inr rfl⟩
  | cons c l =>
    have hc := hl c (List.mem_cons_self ..)
    -- what marks headers, removals and additions is no blank
    have hmarks : c ≠ '-' ∧ c ≠ '+' ∧ c ≠ '@' ∧ c ≠ '\\' := by
      refine ⟨?_, ?_, ?_, ?_⟩ <;> rintro rfl <;> revert hc <;> decide
    have hold : Text.dropPrefix? oldMark (c :: l) = none := by
      simp [Text.dropPrefix?, oldMark, hmarks.1.symm]
    have hnew : Text.dropPrefix? newMark (c :: l) = none := by
      simp [Text.dropPrefix?, newMark, hmarks.2.1.symm]
    have hhunk : hunkMark.isPrefixOf (c :: l) = false := by
      simp [hunkMark, List.isPrefixOf, hmarks.2.2.1.symm]
    have hline : (∃ text, hunkLine (c :: l) = .context text) ∨ hunkLine (c :: l) = .other := by
      unfold hunkLine
      split <;> simp_all
    simp only [classify, hold, hnew, hhunk]
    cases st.inHunk with
    | true => exact ⟨_, rfl, hline⟩
    | false => exact ⟨_, rfl, .inr rfl⟩

/-- The tokens of blank lines are context or nothing. -/
theorem tokenizeFrom_blanks {ls : List Text} (hls : ∀ l ∈ ls, ∀ c ∈ l, Text.isBlank c = true)
    (st : LineState) (n : Nat) : ∃ ts, tokenizeFrom st n ls = .ok ts ∧
      ∀ t ∈ ts, (∃ text, t.kind = .context text) ∨ t.kind = .other := by
  induction ls generalizing st n with
  | nil => exact ⟨[], rfl, fun t ht => absurd ht List.not_mem_nil⟩
  | cons l ls ih =>
    rw [List.forall_mem_cons] at hls
    obtain ⟨kind, hclassify, hkind⟩ := classify_blank hls.1 st n ls.head?
    obtain ⟨ts, htokens, hts⟩ := ih hls.2 (st.after kind) (n + 1)
    refine ⟨⟨n, kind⟩ :: ts, ?_, List.forall_mem_cons.2 ⟨hkind, hts⟩⟩
    rw [tokenizeFrom, hclassify]
    dsimp only
    rw [htokens]

namespace Engine

variable {σ : Type}

/-- Lines that are not compared only move the cursor. -/
theorem step_unchecked (rule : CursorRule) {kind : TokenKind}
    (hkind : (∃ text, kind = .context text) ∨ kind = .other) (n : Nat) (e : Engine) :
    ∃ cursor last, e.step rule false ⟨n, kind⟩ = .ok { e with cursor, last } := by
  rcases hkind with ⟨text, rfl⟩ | rfl
  · cases hopened : e.opened with
    | none => exact ⟨e.cursor, e.last, by rw [step_of_opened_eq_none rfl hopened, ← hopened]⟩
    | some f => exact ⟨rule.advance e.cursor, .kept, by simp [step, keepLine, hopened]⟩
  · exact ⟨e.cursor, e.last, by rw [step]⟩

theorem run_unchecked (rule : CursorRule) (load : σ → Text → Loaded × σ) {ts : List Token}
    (hts : ∀ t ∈ ts, (∃ text, t.kind = .context text) ∨ t.kind = .other) (e : Engine) (s : σ) :
    ∃ cursor last, run rule false load ts e s = (.ok { e with cursor, last }, s) := by
  induction ts generalizing e with
  | nil => exact ⟨e.cursor, e.last, rfl⟩
  | cons t ts ih =>
    obtain ⟨n, kind⟩ := t
    rw [List.forall_mem_cons] at hts
    obtain ⟨cursor, last, hstep⟩ := step_unchecked rule hts.1 n e
    obtain ⟨cursor', last', hrun⟩ := ih hts.2 { e with cursor, last }
    have hkind : ∀ p, kind ≠ .newHeader (some p) := by
      rcases hts.1 with ⟨text, rfl⟩ | rfl <;> simp
    exact ⟨cursor', last', by rw [run_cons load hkind hstep, hrun]⟩

end Engine

/-- Without the strict mode blank lines at the end of a patch do nothing. -/
theorem apply_append_blanks {σ : Type} {p q : Text} {blank : List Text}
    (hlines : patchLines p = patchLines q ++ blank)
    (hblank : ∀ l ∈ blank, ∀ c ∈ l, Text.isBlank c = true) (load : σ → Text → Loaded × σ) (s : σ) :
    apply false load p s = apply false load q s := by
  have hhead : blank.head?.any newMark.isPrefixOf = false := by
    cases blank with
    | nil => rfl
    | cons l blank =>
      rw [List.forall_mem_cons] at hblank
      rw [List.head?_cons, Option.any_some, ← Bool.not_eq_true, List.isPrefixOf_iff_prefix]
      intro hmark
      have hplus := hblank.1 '+' (hmark.subset (by decide))
      revert hplus
      decide
  obtain ⟨st, htokens⟩ := tokenizeFrom_append hhead (patchLines q) ⟨false, false⟩ 1
  obtain ⟨ts', hts', hkinds⟩ := tokenizeFrom_blanks hblank st (1 + (patchLines q).length)
  rw [← hlines, hts'] at htokens
  cases hq : tokenize q with
  | error err =>
    have hp : tokenize p = .error err := by
      rw [tokenize] at hq
      rw [tokenize, htokens, hq]
    rw [apply_of_tokenize_error hp, apply_of_tokenize_error hq]
  | ok ts =>
    have hp : tokenize p = .ok (ts ++ ts') := by
      rw [tokenize] at hq
      rw [tokenize, htokens, hq]
    rw [apply_of_tokenize hp, apply_of_tokenize hq, Engine.run_append]
    rcases Engine.run .word false load ts {} s with ⟨err | e, s'⟩
    · rfl
    · obtain ⟨cursor, last, hrun⟩ := Engine.run_unchecked .word load hkinds e s'
      dsimp only
      rw [hrun]
      -- neither the cursor nor the kind of the last line is part of the result
      obtain ⟨files, warnings, opened, oldPath, creating, _, _⟩ := e
      cases opened with
      | none => rfl
      | some f =>
        simp only [Engine.result, Engine.flush]
        split <;> rfl

end Patch

namespace Turn

/-! ## Replies that hold a patch -/

/-- The reply that holds a patch and nothing else. -/
def patchReply (p : Text) : Text := Tag.patch.marker ++ lf :: p

/-- The patch that is read from such a reply. -/
def sentPatch (p : Text) : Text :=
  Text.trimEnd (Text.joinWith [lf] ((Patch.patchLines p).map Text.dropCr))

/-- One section of lines makes a turn that holds its text. -/
theorem ofSections_patch (ls : List Text) :
    ofSections (ls.map fun l => (Tag.patch, l)) = { patch := (Text.joinWith [lf] ls).trim } := by
  have hother := fun tag (htag : tag ≠ Tag.patch) => sectionText_of_ne ls htag.symm
  rw [ofSections, sectionText_map, hother .thought (by decide), hother .plan (by decide),
    hother .goals (by decide), hother .requests (by decide), hother .comment (by decide)]
  rfl

/-- What such a reply is read as. -/
theorem parse_patchReply_eq {p : Text} (hfirst : Patch.oldMark <+: p)
    (hlines : ∀ l ∈ p.splitOn lf, TagLine.find? l = none) :
    parse (patchReply p) = { patch := sentPatch p } := by
  obtain ⟨rest, hp⟩ := hfirst
  have hcons : p = '-' :: ("-- ".toList ++ rest) := hp.symm
  have hne : p ≠ [] := by simp [hcons]
  have htrim : (Text.joinWith [lf] (p.lines.map Text.dropCr)).trim = sentPatch p := by
    obtain ⟨u, hu⟩ := Text.exists_joinWith_lines (c := '-') (by decide) (by decide)
      ("-- ".toList ++ rest)
    rw [← hcons] at hu
    rw [sentPatch, ← Patch.trimEnd_joinWith_lines hne, hu, Text.trim_eq_trimEnd (by decide)]
  rw [patchReply, parse_section rfl hlines, ofSections_patch, htrim]
  exact finish_eq_self (by simp) (by simp)

/-- A patch in a reply is trimmed and loses the carriage returns at the ends of its lines; nothing
else stands in the turn. The engine reads its lines as they were written exactly when they are such
that a section gives them back, and then it does with them what it does with the patch itself.
Without the strict mode blank lines at the end may be lost. -/
theorem parse_patchReply {p : Text} (hfirst : Patch.oldMark <+: p)
    (hlines : ∀ l ∈ p.splitOn lf, TagLine.find? l = none) :
    parse (patchReply p) = { patch := sentPatch p } ∧
      (Patch.patchLines (parse (patchReply p)).patch = Patch.patchLines p
        ↔ Patch.IsKept (Patch.patchLines p)) ∧
      (Patch.IsKept (Patch.patchLines p) → ∀ {σ : Type} strict (load : σ → Text → Loaded × σ) s,
        Patch.apply strict load (parse (patchReply p)).patch s = Patch.apply strict load p s) ∧
      (Patch.IsKeptButBlanks (Patch.patchLines p) → ∀ {σ : Type} (load : σ → Text → Loaded × σ) s,
        Patch.apply false load (parse (patchReply p)).patch s = Patch.apply false load p s) := by
  have hparse := parse_patchReply_eq hfirst hlines
  have hne := Patch.patchLines_ne_nil p
  have hlf : ∀ l ∈ Patch.patchLines p, lf ∉ l := fun l => Patch.lf_notMem_of_mem_patchLines
  have hkept := Patch.patchLines_trimEnd_iff hne hlf
  rw [hparse]
  refine ⟨rfl, hkept, fun h σ strict load s => ?_, fun h σ load s => ?_⟩
  · exact Patch.apply_congr_patchLines (hkept.2 h) s
  · obtain ⟨kept, blank, hsplit, hkeptne, h, hblank⟩ := h
    have hsent : Patch.patchLines (sentPatch p) = kept := by
      have hblank' : ∀ l ∈ blank.map Text.dropCr, ∀ c ∈ l, Text.isBlank c = true := by
        intro l hl c hc
        obtain ⟨line, hline, rfl⟩ := List.mem_map.1 hl
        exact hblank line hline c ((Text.dropCr_sublist line).subset hc)
      rw [hsplit, List.forall_mem_append] at hlf
      rw [sentPatch, hsplit, List.map_append, h.map_dropCr,
        Text.trimEnd_joinWith_append_blanks hkeptne hblank', h.trimEnd_eq,
        h.patchLines_joinWith hkeptne hlf.1]
    have hlines : Patch.patchLines p = Patch.patchLines (sentPatch p) ++ blank := by
      rw [hsent, hsplit]
    exact (Patch.apply_append_blanks hlines hblank load s).symm

/-- A patch whose last line does not end with blanks. -/
def samplePatch : Text := "--- a/f\n+++ b/f\n@@ -1 +1 @@\n-x\n+y\n".toList

theorem parse_patchReply_sample :
    Patch.oldMark <+: samplePatch ∧ (∀ l ∈ samplePatch.splitOn lf, TagLine.find? l = none) ∧
      Patch.IsKept (Patch.patchLines samplePatch) ∧
      ∀ load : Unit → Text → Loaded × Unit,
        Patch.apply true load (parse (patchReply samplePatch)).patch ()
          = Patch.apply true load samplePatch () := by
  have hfirst : Patch.oldMark <+: samplePatch := by decide
  have hlines : ∀ l ∈ samplePatch.splitOn lf, TagLine.find? l = none := by decide
  have hkept : Patch.IsKept (Patch.patchLines samplePatch) := by decide
  exact ⟨hfirst, hlines, hkept, fun load =>
    (parse_patchReply hfirst hlines).2.2.1 hkept true load ()⟩

/-- A patch whose last line adds a text that ends with blanks. -/
def blankEndPatch : Text := "--- a/f\n+++ b/f\n@@ -1 +1 @@\n-x\n+y  ".toList

theorem parse_patchReply_ne :
    Patch.oldMark <+: blankEndPatch ∧ (∀ l ∈ blankEndPatch.splitOn lf, TagLine.find? l = none) ∧
      (Patch.apply true (fun s _ => (.content ['x', lf], s)) blankEndPatch ()).1
        = .ok ⟨[⟨['f'], "y  \n".toList⟩], []⟩ ∧
      (Patch.apply true (fun s _ => (.content ['x', lf], s))
        (parse (patchReply blankEndPatch)).patch ()).1 = .ok ⟨[⟨['f'], "y\n".toList⟩], []⟩ := by
  refine ⟨by decide, by decide, by decide, by decide⟩

end Turn

end Mend
