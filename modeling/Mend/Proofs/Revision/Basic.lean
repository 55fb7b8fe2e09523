import Mathlib.Data.List.Chain
import Mend.Patch.Apply
import Mend.Proofs.Text.Lines

/-!
# Revisions

A revision says how one file changes: which lines are kept, removed and added, in hunks with lines
left alone between them. This module gives its two sides and its patch in the unified format; it
does not say what applying the patch does.

- `FileLine` and `FileLine.IsSide`: the lines of a content, of which only the last may lack its line
  feed;
- `Revision.Edit`, `Revision.Hunk` and `Revision`: what happens to the lines of one file;
- `Revision.oldLines` and `Revision.newLines`: the file before and after;
- `Revision.patch`: the text of a patch that holds several revisions;
- `Revision.WellFormed`: what the patch of a revision must satisfy to be read as it is meant.

Main statements: `FileLine.ofContent_content` and `FileLine.content_buffer`, which say that a line
buffer holds exactly the lines of a side, and `LineBuffer.ofContent_content`, which says what is read
back of a buffer.
-/

namespace Mend

namespace LineBuffer

/-- The buffer of a content that ends with a line feed. -/
theorem ofContent_append_lf (body : Text) :
    ofContent (body ++ [Text.lf]) = ⟨body.splitOn Text.lf, true⟩ := by
  simp [ofContent, Text.dropSuffix?]

/-- The buffer of a content that does not end with a line feed. -/
theorem ofContent_of_getLast? {c : Text} (hne : c ≠ []) (hlast : c.getLast? ≠ some Text.lf) :
    ofContent c = ⟨c.splitOn Text.lf, false⟩ := by
  have hsuffix : ¬ [Text.lf] <:+ c := by
    rintro ⟨front, rfl⟩
    simp at hlast
  simp [ofContent, hne, Text.dropSuffix?, hsuffix]

variable {b : LineBuffer}

/-- Whether the buffer has no lines, or an empty last line. -/
def endsBlank (b : LineBuffer) : Bool := b.lines.getLast?.all List.isEmpty

/-- Whether the content of the buffer does not tell how it ends: without a line feed at its end, a last
line that is empty looks as if it were none. -/
def hidesEnd (b : LineBuffer) : Bool := !b.ended && b.endsBlank

/-- The lines of a buffer are read back from its content, and so is how it ends where the content tells
it. -/
theorem ofContent_content (hlf : ∀ l ∈ b.lines, Text.lf ∉ l) (hend : b.hidesEnd = false) :
    ofContent b.content = b := by
  obtain ⟨lines, ended⟩ := b
  dsimp only at hlf
  rcases List.eq_nil_or_concat' lines with rfl | ⟨init, last, rfl⟩
  · -- without lines only the end of an ended buffer is told
    cases ended with
    | true => rfl
    | false => cases hend
  have hsplit : (Text.joinWith [Text.lf] (init ++ [last])).splitOn Text.lf = init ++ [last] :=
    List.splitOn_intercalate Text.lf hlf (by simp)
  cases ended with
  | true =>
    have hcontent : content ⟨init ++ [last], true⟩
        = Text.joinWith [Text.lf] (init ++ [last]) ++ [Text.lf] := by simp [content]
    rw [hcontent, ofContent_append_lf, hsplit]
  | false =>
    have hne : last ≠ [] := by simpa [hidesEnd, endsBlank] using hend
    obtain ⟨front, hfront⟩ := Text.joinWith_concat [Text.lf] init last
    have hcontent : content ⟨init ++ [last], false⟩ = Text.joinWith [Text.lf] (init ++ [last]) := by
      simp [content]
    rw [hcontent, ofContent_of_getLast?, hsplit]
    · rw [hfront]
      exact List.append_ne_nil_of_right_ne_nil front hne
    · -- the last line is not empty and holds no line feed
      rw [hfront, List.getLast?_append_of_ne_nil _ hne]
      exact fun hlast => hlf last (by simp) (List.mem_of_getLast? hlast)

end LineBuffer

/-- A line of a file. -/
structure FileLine where
  /-- The line without its line feed. -/
  text : Text
  /-- Whether a line feed ends the line. -/
  ended : Bool
  deriving DecidableEq, Repr

namespace FileLine

/-- The line as it stands in the file. -/
def written (l : FileLine) : Text := if l.ended then l.text ++ [Text.lf] else l.text

/-- The content that lines make. -/
def content (ls : List FileLine) : Text := ls.flatMap written

/-- Whether a line feed ends the last line. No lines count as ended. -/
def endedLast (ls : List FileLine) : Bool := ls.getLast?.all ended

/-- The lines that a content is cut into. -/
structure IsSide (ls : List FileLine) : Prop where
  /-- Only the last line may lack its line feed. -/
  ended_of_later : ls.Pairwise fun l _ => l.ended = true
  /-- No line goes over a line feed. -/
  lf_notMem : ∀ l ∈ ls, Text.lf ∉ l.text
  /-- A line without a line feed is not empty. -/
  text_ne_nil : ∀ l ∈ ls, l.ended = false → l.text ≠ []

instance (ls : List FileLine) : Decidable (IsSide ls) :=
  decidable_of_iff
    ((ls.Pairwise fun l _ => l.ended = true) ∧ (∀ l ∈ ls, Text.lf ∉ l.text) ∧
      ∀ l ∈ ls, l.ended = false → l.text ≠ [])
    ⟨fun ⟨ended, lf, ne⟩ => ⟨ended, lf, ne⟩,
      fun h => ⟨h.ended_of_later, h.lf_notMem, h.text_ne_nil⟩⟩

@[simp]
theorem content_nil : content [] = [] := rfl

@[simp]
theorem content_cons (l : FileLine) (ls : List FileLine) :
    content (l :: ls) = l.written ++ content ls := by
  simp [content]

@[simp]
theorem endedLast_nil : endedLast [] = true := rfl

@[simp]
theorem endedLast_cons_cons (l m : FileLine) (ls : List FileLine) :
    endedLast (l :: m :: ls) = endedLast (m :: ls) := by
  simp [endedLast]

@[simp]
theorem endedLast_singleton (l : FileLine) : endedLast [l] = l.ended := rfl

/-- A line with its line feed in front does not change how lines end. -/
theorem endedLast_cons_of_ended {l : FileLine} (h : l.ended = true) (ls : List FileLine) :
    endedLast (l :: ls) = endedLast ls := by
  cases ls with
  | nil => simpa using h
  | cons m ls => simp

/-- Nothing follows a line without a line feed. -/
theorem eq_nil_of_not_ended {l : FileLine} {ls : List FileLine}
    (hside : (l :: ls).Pairwise fun l _ => l.ended = true) (h : l.ended = false) : ls = [] := by
  cases ls with
  | nil => rfl
  | cons m ls =>
    -- a later line needs the line feed of this one
    have : l.ended = true := List.rel_of_pairwise_cons hside (List.mem_cons_self ..)
    rw [h] at this
    cases this

theorem isSide_nil : IsSide [] := by
  constructor <;> simp

theorem IsSide.tail {l : FileLine} {ls : List FileLine} (h : IsSide (l :: ls)) : IsSide ls where
  ended_of_later := h.ended_of_later.of_cons
  lf_notMem m hm := h.lf_notMem m (List.mem_cons_of_mem _ hm)
  text_ne_nil m hm := h.text_ne_nil m (List.mem_cons_of_mem _ hm)

/-- A line with its line feed in front of the lines of a content. -/
theorem IsSide.cons {l : FileLine} {ls : List FileLine} (hended : l.ended = true)
    (hlf : Text.lf ∉ l.text) (h : IsSide ls) : IsSide (l :: ls) where
  ended_of_later := List.pairwise_cons.2 ⟨fun _ _ => hended, h.ended_of_later⟩
  lf_notMem := List.forall_mem_cons.2 ⟨hlf, h.lf_notMem⟩
  text_ne_nil := List.forall_mem_cons.2 ⟨fun hopen => by simp [hended] at hopen, h.text_ne_nil⟩

/-- Each line of a content has a character. -/
theorem IsSide.length_le_content {ls : List FileLine} (h : IsSide ls) :
    ls.length ≤ (content ls).length := by
  induction ls with
  | nil => exact Nat.le_refl 0
  | cons l ls ih =>
    have hpos : 0 < l.written.length := by
      apply List.length_pos_iff.2
      cases hl : l.ended with
      | true => simp [written, hl]
      | false => simpa [written, hl] using h.text_ne_nil l (List.mem_cons_self ..) hl
    have hrest := ih h.tail
    rw [content_cons, List.length_append, List.length_cons]
    omega

theorem mem_content {ls : List FileLine} {l : FileLine} (hl : l ∈ ls) {c : Char}
    (hc : c ∈ l.text) : c ∈ content ls := by
  refine List.mem_flatMap.2 ⟨l, hl, ?_⟩
  rw [written]
  split
  · exact List.mem_append_left _ hc
  · exact hc

/-- The content of lines is their texts with line feeds between them, and one at the end unless the
last line lacks it. -/
theorem content_eq_joinWith {l : FileLine} {ls : List FileLine}
    (hside : (l :: ls).Pairwise fun l _ => l.ended = true) :
    content (l :: ls) = Text.joinWith [Text.lf] ((l :: ls).map text) ++
      if endedLast (l :: ls) then [Text.lf] else [] := by
  induction ls generalizing l with
  | nil => cases h : l.ended <;> simp [written, Text.joinWith, h]
  | cons m ls ih =>
    have hl : l.ended = true := List.rel_of_pairwise_cons hside (List.mem_cons_self ..)
    rw [content_cons, ih hside.of_cons, endedLast_cons_cons]
    simp only [List.map_cons, Text.joinWith_cons_cons, written, hl, if_true, List.append_assoc]

/-- Writing a buffer that holds the lines of a side gives the content of the side. -/
theorem content_buffer {ls : List FileLine} (hside : ls.Pairwise fun l _ => l.ended = true) :
    LineBuffer.content ⟨ls.map text, endedLast ls⟩ = content ls := by
  cases ls with
  | nil => rfl
  | cons l ls =>
    rw [content_eq_joinWith hside, LineBuffer.content]
    cases endedLast (l :: ls) <;> simp

/-- Reading the content of a side gives a buffer that holds its lines. -/
theorem ofContent_content {ls : List FileLine} (hside : IsSide ls) :
    LineBuffer.ofContent (content ls) = ⟨ls.map text, endedLast ls⟩ := by
  rw [← content_buffer hside.ended_of_later]
  refine LineBuffer.ofContent_content ?_ ?_
  · simpa using hside.lf_notMem
  · -- a last line without a line feed is not empty
    rw [LineBuffer.hidesEnd, LineBuffer.endsBlank, endedLast]
    rw [List.getLast?_map]
    cases hlast : ls.getLast? with
    | none => rfl
    | some l =>
      have hne := hside.text_ne_nil l (List.mem_of_getLast? hlast)
      cases hl : l.ended with
      | true => simp [hl]
      | false => simpa [hl] using hne hl

end FileLine

namespace Revision

/-! ## Edits -/

/-- What happens to one line. -/
inductive Edit where
  /-- The line stands on both sides. -/
  | keep (l : FileLine)
  /-- The line stands on the old side only. -/
  | remove (l : FileLine)
  /-- The line stands on the new side only. -/
  | add (l : FileLine)
  deriving DecidableEq, Repr

/-- The row of a patch that says that the line before it ends without a line feed. -/
def endMark : Text := "\\ No newline at end of file".toList

namespace Edit

/-- The line that an edit is about. -/
def line : Edit → FileLine
  | keep l | remove l | add l => l

/-- The lines of the old side. -/
def old : Edit → List FileLine
  | keep l | remove l => [l]
  | add _ => []

/-- The lines of the new side. -/
def new : Edit → List FileLine
  | keep l | add l => [l]
  | remove _ => []

/-- The character in front of the line in a patch. -/
def mark : Edit → Char
  | keep _ => ' '
  | remove _ => '-'
  | add _ => '+'

/-- The row of a patch that shows the line. -/
def row (e : Edit) : Text := e.mark :: e.line.text

/-- The rows of an edit: its line, and the mark of a missing line feed. -/
def rows (e : Edit) : List Text := e.row :: if e.line.ended then [] else [endMark]

/-- Two edits in a row that read as the headers of a file: the line that the first one removes
starts with `-- ` and the line that the second one adds starts with `++ `. -/
def readsAsHeader : Edit → Edit → Bool
  | remove l, add m => l.ended && ['-', '-', ' '].isPrefixOf l.text && ['+', '+', ' '].isPrefixOf m.text
  | _, _ => false

/-- Two edits in a row of which the first one adds and the second one removes. -/
def addsThenRemoves : Edit → Edit → Bool
  | add _, remove _ => true
  | _, _ => false

/-- An edit that removes a line without a line feed after another one has added such a line. -/
def reopensEnd : Edit → Edit → Bool
  | add l, remove m => !l.ended && !m.ended
  | _, _ => false

end Edit

/-! ## Hunks -/

/-- Edits in a row, and the lines left alone before them. -/
structure Hunk where
  /-- The lines between the hunk before and this one. -/
  gap : List FileLine
  /-- What the header says about the old side. -/
  oldRange : Text
  /-- What the header says about the new side. -/
  newRange : Text
  /-- The edits in order. -/
  edits : List Edit
  deriving DecidableEq, Repr

namespace Hunk

/-- The lines of the old side. -/
def old (h : Hunk) : List FileLine := h.edits.flatMap Edit.old

/-- The lines of the new side. -/
def new (h : Hunk) : List FileLine := h.edits.flatMap Edit.new

/-- The header. -/
def header (h : Hunk) : Text :=
  Patch.hunkMark ++ [' ', '-'] ++ h.oldRange ++ [' ', '+'] ++ h.newRange ++ ' ' :: Patch.hunkMark

/-- The rows of a hunk. -/
def rows (h : Hunk) : List Text := h.header :: h.edits.flatMap Edit.rows

/-- The start of a hunk on the new side, when `before` lines of the new side stand before it: the
number of its first line, or of the line before it when it has none. -/
def newStart (h : Hunk) (before : Nat) : Nat := if h.new.length = 0 then before else before + 1

end Hunk

/-- The headers of the hunks read as ranges, and those of the new side give the start and the length
of their hunks, when `before` lines of the new side stand before the first gap. -/
def Numbered : Nat → List Hunk → Prop
  | _, [] => True
  | before, h :: hs =>
    Patch.range? h.oldRange ≠ none ∧
      Patch.range? h.newRange = some (h.newStart (before + h.gap.length), h.new.length) ∧
        Numbered (before + h.gap.length + h.new.length) hs

instance decidableNumbered (before : Nat) (hs : List Hunk) : Decidable (Numbered before hs) :=
  match hs with
  | [] => isTrue trivial
  | h :: hs =>
    let _ := decidableNumbered (before + h.gap.length + h.new.length) hs
    inferInstanceAs (Decidable (_ ∧ _ ∧ _))

end Revision

/-! ## Revisions of a file -/

/-- How one file changes. -/
structure Revision where
  /-- The path of the file. -/
  path : Text
  /-- Whether the patch says that the file is new. -/
  creates : Bool
  /-- The hunks in order. -/
  hunks : List Revision.Hunk
  /-- The lines after the last hunk. -/
  rest : List FileLine
  deriving DecidableEq, Repr

namespace Revision

/-- The file before. -/
def oldLines (r : Revision) : List FileLine := r.hunks.flatMap (fun h => h.gap ++ h.old) ++ r.rest

/-- The file after. -/
def newLines (r : Revision) : List FileLine := r.hunks.flatMap (fun h => h.gap ++ h.new) ++ r.rest

/-- The edits of all hunks. -/
def edits (r : Revision) : List Edit := r.hunks.flatMap Hunk.edits

/-- The lines in order with what happens to each; lines between hunks are kept. -/
def script (r : Revision) : List Edit :=
  r.hunks.flatMap (fun h => h.gap.map Edit.keep ++ h.edits) ++ r.rest.map Edit.keep

theorem script_old (r : Revision) : r.script.flatMap Edit.old = r.oldLines := by
  simp [script, oldLines, Hunk.old, List.flatMap_assoc, List.flatMap_map, Edit.old]

theorem script_new (r : Revision) : r.script.flatMap Edit.new = r.newLines := by
  simp [script, newLines, Hunk.new, List.flatMap_assoc, List.flatMap_map, Edit.new]

/-- What the row of the old side names. -/
def oldName (r : Revision) : Text := if r.creates then Patch.nullDevice else 'a' :: '/' :: r.path

/-- The row that names the old side. -/
def oldHeader (r : Revision) : Text := Patch.oldMark ++ r.oldName

/-- The row that names the new side. -/
def newHeader (r : Revision) : Text := Patch.newMark ++ 'b' :: '/' :: r.path

/-- The rows of the patch of a revision. -/
def rows (r : Revision) : List Text :=
  r.oldHeader :: r.newHeader :: r.hunks.flatMap Hunk.rows

/-- The patch of several revisions. -/
def patch (rs : List Revision) : Text := Text.unlines (rs.flatMap rows)

/-- A path that stands in a patch as it is. -/
structure IsPlainPath (path : Text) : Prop where
  ne_nil : path ≠ []
  trim_eq : path.trim = path
  tab_notMem : '\t' ∉ path
  lf_notMem : Text.lf ∉ path
  cr_notMem : Text.cr ∉ path
  not_dot_prefix : ¬ ['.', '/'] <+: path

instance (path : Text) : Decidable (IsPlainPath path) :=
  decidable_of_iff
    (path ≠ [] ∧ path.trim = path ∧ '\t' ∉ path ∧ Text.lf ∉ path ∧ Text.cr ∉ path ∧
      ¬ ['.', '/'] <+: path)
    ⟨fun ⟨ne, trim, tab, lf, cr, dot⟩ => ⟨ne, trim, tab, lf, cr, dot⟩,
      fun h => ⟨h.ne_nil, h.trim_eq, h.tab_notMem, h.lf_notMem, h.cr_notMem, h.not_dot_prefix⟩⟩

/-- A revision with two proper sides and a patch that gives their numbers. -/
structure Consistent (r : Revision) : Prop where
  plain_path : IsPlainPath r.path
  /-- A file that is new was empty. -/
  old_of_creates : r.creates = true → r.oldLines = []
  old_side : FileLine.IsSide r.oldLines
  new_side : FileLine.IsSide r.newLines
  /-- The lines of the new side are counted with 64 bits. -/
  fits : r.newLines.length < 2 ^ 64
  numbered : Numbered 0 r.hunks
  /-- A carriage return at the end of a row would be dropped. -/
  no_cr : ∀ e ∈ r.edits, e.line.text.getLast? ≠ some Text.cr

instance (r : Revision) : Decidable (Consistent r) :=
  decidable_of_iff
    (IsPlainPath r.path ∧ (r.creates = true → r.oldLines = []) ∧ FileLine.IsSide r.oldLines ∧
      FileLine.IsSide r.newLines ∧ r.newLines.length < 2 ^ 64 ∧ Numbered 0 r.hunks ∧
      ∀ e ∈ r.edits, e.line.text.getLast? ≠ some Text.cr)
    ⟨fun ⟨path, creates, old, new, fits, numbered, cr⟩ =>
        ⟨path, creates, old, new, fits, numbered, cr⟩,
      fun h => ⟨h.plain_path, h.old_of_creates, h.old_side, h.new_side, h.fits, h.numbered,
        h.no_cr⟩⟩

/-- A revision whose patch is read as it is meant. -/
structure WellFormed (r : Revision) : Prop extends Consistent r where
  /-- No two rows of a hunk read as the headers of a file. -/
  no_header : ∀ h ∈ r.hunks, h.edits.IsChain fun a b => a.readsAsHeader b = false
  /-- Once the new side ends without a line feed, the end of the old side is not removed. -/
  no_reopen : r.edits.Pairwise fun a b => a.reopensEnd b = false

instance (r : Revision) : Decidable (WellFormed r) :=
  decidable_of_iff
    (Consistent r ∧ (∀ h ∈ r.hunks, h.edits.IsChain fun a b => a.readsAsHeader b = false) ∧
      r.edits.Pairwise fun a b => a.reopensEnd b = false)
    ⟨fun ⟨consistent, header, reopen⟩ => ⟨consistent, header, reopen⟩,
      fun h => ⟨h.toConsistent, h.no_header, h.no_reopen⟩⟩

end Revision

end Mend
