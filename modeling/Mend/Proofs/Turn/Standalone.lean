import Mend.Proofs.Json.Embedded
import Mend.Proofs.Turn.Sections

/-!
# Replies that are one JSON value

A reply that is one JSON value about paths is read without delimiters. The same text in a section of
requests asks for the same files (`Turn.parse_requests_section`), although the section is read line
by line, and its value is looked for between its brackets: line ends stand between the tokens of JSON
only, so the lines of a value spell that value.
-/

namespace Mend

open Text (lf)

namespace Turn

/-- A reply that is one JSON value starts with a bracket, holds a name and is read; that its brackets
enclose all of it follows. -/
theorem ofJson?_eq_ite (raw : Text) : ofJson? raw =
    if raw.trim.head?.any Nesting.isOpener = true ∧
        (standaloneNames.any fun name => Text.hasInfix name raw.trim) = true then
      (Json.read? raw.trim).map fun v => { plan := planOfJson? v, requests := Request.listOfJson v }
    else none := by
  rw [ofJson?]
  cases hopen : raw.trim.head?.any Nesting.isOpener with
  | false => simp
  | true =>
    cases hnames : standaloneNames.any fun name => Text.hasInfix name raw.trim with
    | false => simp
    | true =>
      cases hread : Json.read? raw.trim with
      | none => simp
      | some v => simp [Json.balanced?_of_read? (Text.trim_trim raw) hopen hread]

/-- What is read from a text that is one JSON value. -/
theorem exists_of_ofJson? {raw : Text} {t : Turn} (h : ofJson? raw = some t) :
    ∃ v, Json.read? raw.trim = some v ∧ raw.trim.head?.any Nesting.isOpener = true ∧
      t = { plan := planOfJson? v, requests := Request.listOfJson v } := by
  rw [ofJson?_eq_ite] at h
  split at h
  · rename_i hvalue
    obtain ⟨v, hread, rfl⟩ := Option.map_eq_some_iff.1 h
    exact ⟨v, hread, hvalue.1, rfl⟩
  · cases h

/-- The requests of a turn that asks for files itself are kept, each path once. -/
theorem requests_finish {t : Turn} (h : t.requests ≠ [] ∨ t.plan = none) :
    (finish t).requests = Request.distinct t.requests := by
  rw [finish]
  dsimp only
  split
  · rename_i plan hnil hplan
    rcases h with h | h
    · exact absurd hnil h
    · rw [hplan] at h
      cases h
  · rfl

/-- A section of requests asks for the files of a value that it holds. -/
theorem requests_parse_section {J : Text} {v : Json} (h : Json.Embeds J v)
    (hv : v.isBracketed = true) (hplain : J.plainQuotes = J)
    (hlines : ∀ l ∈ J.splitOn lf, TagLine.find? l = none) (hne : Request.listOfJson v ≠ []) :
    (parse (Tag.requests.marker ++ lf :: J)).requests = Request.distinct (Request.listOfJson v) := by
  generalize hls : J.lines.map Text.dropCr = ls
  -- the lines spell the value, and what is trimmed stands around it
  have hrelined : Text.Relined (Text.joinWith [lf] J.lines) (Text.joinWith [lf] ls) := by
    rw [← hls]
    exact Text.relined_map_dropCr J.lines
  have hjoined := (h.relined (Text.relined_lines J)).relined hrelined
  have hquotes : (Text.joinWith [lf] ls).trim.plainQuotes = (Text.joinWith [lf] ls).trim := by
    have hsublist := (hrelined.sublist.trans (Text.relined_lines J).sublist)
    refine Text.plainQuotes_eq_self fun c hc => Text.plainChar?_of_plainQuotes hplain c ?_
    exact hsublist.subset (Text.mem_of_mem_trim hc)
  have hresolve := Request.resolve_of_recover? ((hjoined.trim hv).any_isOpener hv)
    ((hjoined.trim hv).recover? hv hquotes) hne
  have hplan : (ofSections (ls.map fun l => (Tag.requests, l))).plan = none := by
    rw [ofSections, sectionText_of_ne ls (by decide : Tag.requests ≠ .plan)]
    rfl
  have hrequests : (ofSections (ls.map fun l => (Tag.requests, l))).requests
      = Request.listOfJson v := by
    rw [← hresolve, ← sectionText_map ls .requests]
    rfl
  rw [parse_section rfl hlines, hls, requests_finish (.inr hplan), hrequests]

/-- A JSON value asks for the same files without a delimiter and in a section of requests. -/
theorem parse_requests_section {J : Text} {t : Turn} (hjson : ofJson? J = some t)
    (hplain : J.plainQuotes = J) (hlines : ∀ l ∈ J.splitOn lf, TagLine.find? l = none)
    (hne : t.requests ≠ []) :
    (parse (Tag.requests.marker ++ lf :: J)).requests = (parse J).requests := by
  obtain ⟨v, hread, hopen, rfl⟩ := exists_of_ofJson? hjson
  have htrimmed := Json.embeds_of_read? hread
  have hv := htrimmed.isBracketed hopen
  obtain ⟨hfin, hnoChanges⟩ := hasInfix_of_lines hlines
  have hparse : parse J = finish { plan := planOfJson? v, requests := Request.listOfJson v } := by
    rw [parse, hfin, hnoChanges, hjson]
    rfl
  rw [requests_parse_section (Json.embeds_of_trim htrimmed) hv hplain hlines hne, hparse,
    requests_finish (.inl hne)]

/-- A value on two lines, with a member that makes no request. -/
def sampleValue : Text := "[ \x7b\"step\": true, \"filePath\" :\r\n\t\"a/b\" \x7d,\n \"c\" ]".toList

theorem parse_requests_section_sample :
    ofJson? sampleValue = some { requests := [.file "a/b".toList, .file ['c']] } ∧
      sampleValue.plainQuotes = sampleValue ∧
      (∀ l ∈ sampleValue.splitOn lf, TagLine.find? l = none) ∧
      (parse (Tag.requests.marker ++ lf :: sampleValue)).requests = (parse sampleValue).requests := by
  have hjson : ofJson? sampleValue = some { requests := [.file "a/b".toList, .file ['c']] } := by
    decide +kernel
  have hplain : sampleValue.plainQuotes = sampleValue := by decide +kernel
  have hlines : ∀ l ∈ sampleValue.splitOn lf, TagLine.find? l = none := by decide +kernel
  have hne : [Request.file "a/b".toList, .file ['c']] ≠ [] := List.cons_ne_nil _ _
  exact ⟨hjson, hplain, hlines, parse_requests_section hjson hplain hlines hne⟩

end Turn

end Mend
