import Mend.Proofs.Turn.RoundTrip

/-!
# Replies of one section

A reply that is a delimiter and text without delimiters is read as one section (`Turn.parse_section`),
whose text is the lines of the reply without carriage returns at their ends, joined and trimmed
(`Turn.sectionText_map`).
-/

namespace Mend

open Text (lf)

namespace Turn

variable {tag : Tag} {body : Text}

/-- The text of the only section. -/
theorem sectionText_map (ls : List Text) (tag : Tag) :
    sectionText (ls.map fun l => (tag, l)) tag = (Text.joinWith [lf] ls).trim := by
  have hall : ((ls.map fun l => (tag, l)).filter fun e => e.1 = tag) = ls.map fun l => (tag, l) := by
    simp [List.filter_eq_self]
  rw [sectionText, hall, List.map_map]
  simp [Function.comp_def]

/-- The other sections are empty. -/
theorem sectionText_of_ne (ls : List Text) {tag other : Tag} (h : tag ≠ other) :
    sectionText (ls.map fun l => (tag, l)) other = [] := by
  have hnone : ((ls.map fun l => (tag, l)).filter fun e => e.1 = other) = [] := by
    simp [List.filter_map, Function.comp_def, h]
  rw [sectionText, hnone]
  rfl

/-- A text of lines without delimiters completes nothing. -/
theorem hasInfix_of_lines (hlines : ∀ l ∈ body.splitOn lf, TagLine.find? l = none) :
    Text.hasInfix Tag.finMarker body = false ∧ Text.hasInfix Tag.noChangesMarker body = false := by
  rw [← Text.joinWith_splitOn lf body]
  exact ⟨Text.hasInfix_joinWith_eq_false (by decide) (by decide) fun l hl =>
      TagLine.hasInfix_finMarker (hlines l hl),
    Text.hasInfix_joinWith_eq_false (by decide) (by decide) fun l hl =>
      TagLine.hasInfix_noChangesMarker (hlines l hl)⟩

/-- What is read of such lines has no delimiters. -/
theorem find?_of_mem_lines (hlines : ∀ l ∈ body.splitOn lf, TagLine.find? l = none) {l : Text}
    (hl : l ∈ body.lines.map Text.dropCr) : TagLine.find? l = none := by
  obtain ⟨line, hline, rfl⟩ := List.mem_map.1 hl
  obtain ⟨piece, hpiece, rfl | rfl⟩ := Text.exists_of_mem_linesOfPieces hline
  · rw [TagLine.find?_dropCr, hlines _ hpiece]
  · rw [TagLine.find?_dropCr, TagLine.find?_dropCr, hlines _ hpiece]

/-- The lines of such a reply are the lines of one section. -/
theorem scanLines_section (htag : tag.isTerminal = false)
    (hlines : ∀ l ∈ body.splitOn lf, TagLine.find? l = none) :
    scanLines none ((tag.marker ++ lf :: body).lines.map Text.dropCr)
      = ((body.lines.map Text.dropCr).map fun l => (tag, l), .none) := by
  have hfind : ∀ l ∈ body.lines.map Text.dropCr, TagLine.find? l = none := fun l hl =>
    find?_of_mem_lines hlines hl
  have hmarker := isRow_marker tag
  have happend := scanLines_append hfind tag []
  rw [List.append_nil] at happend
  rw [Text.lines_append_cons hmarker.lf_notMem, List.map_cons,
    Text.dropCr_eq_self hmarker.getLast?_ne, Text.dropCr_eq_self hmarker.getLast?_ne,
    scanLines_marker htag, happend]
  simp [scanLines]

/-- A delimiter and text without delimiters are read as one section. -/
theorem parse_section (htag : tag.isTerminal = false)
    (hlines : ∀ l ∈ body.splitOn lf, TagLine.find? l = none) :
    parse (tag.marker ++ lf :: body)
      = finish (ofSections ((body.lines.map Text.dropCr).map fun l => (tag, l))) := by
  have hmarker := isRow_marker tag
  obtain ⟨hbodyFin, hbodyNoChanges⟩ := hasInfix_of_lines hlines
  have hfin : Text.hasInfix Tag.finMarker (tag.marker ++ lf :: body) = false := by
    rw [Text.hasInfix_append_cons (by decide) (by decide), hmarker.fin, hbodyFin]
    rfl
  have hnoChanges : Text.hasInfix Tag.noChangesMarker (tag.marker ++ lf :: body) = false := by
    rw [Text.hasInfix_append_cons (by decide) (by decide), hmarker.noChanges, hbodyNoChanges]
    rfl
  -- a reply that starts with a delimiter is no JSON value
  have hjson : ofJson? (tag.marker ++ lf :: body) = none := by
    refine ofJson?_eq_none fun c hc => ?_
    have hhead : (tag.marker ++ lf :: body).head? = some '%' := by cases tag <;> rfl
    exact (Option.mem_some_iff.1 (hhead ▸ hc)).symm
  rw [parse, hfin, hnoChanges, hjson, ofDelimited, scanLines_section htag hlines]
  rfl

end Turn

end Mend
