import Mend.Proofs.Request.RoundTrip
import Mend.Turn.Parse

/-!
# Reading a turn that was written

The canonical reply of a turn reads as that turn (`Turn.parse_toTagText`), when the turn is canonical
(`Turn.Canonical`): its texts are trimmed and hold no delimiters, its requests have different paths
in plain characters, and its signal leaves room for what it holds.

The reply is a list of rows, a delimiter and the lines of its section one after the other
(`Turn.rows`). The scan gives each line back with the tag of its section (`Turn.scanLines_rows`), so
the text of each section is what was written for it (`Turn.sectionText_entries`).
-/

namespace Mend

open Text (lf cr)

namespace Turn

/-! ## Canonical turns -/

/-- A text that a section gives back as it is. -/
structure IsField (t : Text) : Prop where
  trim_eq : t.trim = t
  no_crlf : ¬ [cr, lf] <:+: t
  no_delimiter : ∀ l ∈ t.lines, TagLine.find? l = none

/-- A turn whose canonical reply holds all of it. -/
structure Canonical (t : Turn) : Prop where
  thought_ne : t.thought ≠ some []
  plan_ne : t.plan ≠ some []
  goals_ne : t.goals ≠ some []
  isField : ∀ s ∈ [t.thought.getD [], t.plan.getD [], t.goals.getD [], t.patch, t.comment], IsField s
  /-- A completion signal stands alone. -/
  completed : t.signal = .fin ∨ t.signal = .noChangesNeeded → t = ofSignal t.signal
  /-- A review signal goes with advisory texts only. -/
  reviewed : t.signal = .verificationReport ∨ t.signal = .readyForFinalCheck →
    t.requests = [] ∧ t.patch = []
  isPlainPath : t.signal = .none → ∀ r ∈ t.requests, Request.IsPlainPath r.path
  nodup : t.signal = .none → (t.requests.map Request.path).Nodup
  /-- The plan of a turn without requests names no file. -/
  unplanned : t.signal = .none → t.requests = [] → ∀ plan ∈ t.plan, Request.ofPlan plan = []

instance (t : Text) : Decidable (IsField t) :=
  decidable_of_iff (t.trim = t ∧ ¬ Text.hasInfix [cr, lf] t ∧ ∀ l ∈ t.lines, TagLine.find? l = none)
    ⟨fun ⟨htrim, hcrlf, hfind⟩ => ⟨htrim, fun h => hcrlf (Text.hasInfix_iff.2 h), hfind⟩,
      fun h => ⟨h.trim_eq, fun hcrlf => h.no_crlf (Text.hasInfix_iff.1 hcrlf), h.no_delimiter⟩⟩

/-- A text that the line reader gives back line by line. -/
structure IsLined (t : Text) : Prop where
  trim_eq : t.trim = t
  no_crlf : ¬ [cr, lf] <:+: t

theorem IsField.isLined {t : Text} (h : IsField t) : IsLined t := ⟨h.trim_eq, h.no_crlf⟩

/-- A line that ends in CR is followed by LF, or it ends the text and is not trimmed. -/
theorem IsLined.getLast?_ne {t l : Text} (h : IsLined t) (hl : l ∈ t.splitOn lf) :
    l.getLast? ≠ some cr := by
  intro hcr
  rcases Text.crlf_or_getLast? hl hcr with hfound | hlast
  · rw [Text.joinWith_splitOn] at hfound
    exact h.no_crlf hfound
  · rw [Text.joinWith_splitOn] at hlast
    have hblank := Text.isBlank_getLast?_of_trim h.trim_eq hlast
    revert hblank
    decide

/-- The lines of a field can be told apart from delimiters and are given back by the line reader. -/
theorem IsField.of_mem_splitOn {t l : Text} (h : IsField t) (hl : l ∈ t.splitOn lf) :
    l.getLast? ≠ some cr ∧ TagLine.find? l = none := by
  have hcr := h.isLined.getLast?_ne hl
  refine ⟨hcr, ?_⟩
  -- an empty piece need not be among the lines, but holds nothing
  by_cases hne : l = []
  · rw [hne]
    rfl
  · exact h.no_delimiter l (Text.mem_linesOfPieces hl hne hcr)

theorem isField_requestsText {rs : List Request} (h : ∀ r ∈ rs, Request.IsPlainPath r.path) :
    IsField (requestsText rs) := by
  have hlf := Request.lf_notMem_requestsText rs
  refine ⟨Request.trim_requestsText rs, fun hfound => ?_, fun l hl => ?_⟩
  · exact hlf (hfound.subset (by decide))
  · by_cases hne : requestsText rs = []
    · rw [hne] at hl
      cases hl
    · rw [Text.lines_of_lf_notMem hne hlf, List.mem_singleton] at hl
      rw [hl]
      exact Request.find?_requestsText h

/-! ## Rows -/

/-- The tags of the sections, in their canonical order. -/
def sectionTags : List Tag := [.thought, .plan, .goals, .requests, .patch, .comment]

/-- The text of a section of a turn. -/
def body (t : Turn) : Tag → Text
  | .thought => t.thought.getD []
  | .plan => t.plan.getD []
  | .goals => t.goals.getD []
  | .requests => requestsText t.requests
  | .patch => t.patch
  | .comment => t.comment
  | .ignored | .verificationReport | .finalCheck => []

/-- The delimiter and the lines of a section. -/
def sectionRows (t : Turn) (tag : Tag) : List Text := tag.marker :: (t.body tag).splitOn lf

/-- The lines of a section with its tag. -/
def sectionEntries (t : Turn) (tag : Tag) : List (Tag × Text) :=
  ((t.body tag).splitOn lf).map fun l => (tag, l)

/-- The tags of the sections that are written. -/
def writtenTags (t : Turn) : List Tag := sectionTags.filter fun tag => !(t.body tag).isEmpty

/-- The lines of the canonical reply of a turn that is not complete. -/
def rows (t : Turn) : List Text := t.writtenTags.flatMap t.sectionRows ++ signalBlock t.signal

theorem blocks_eq (t : Turn) :
    t.blocks = (t.writtenTags.map fun tag => tag.marker ++ lf :: t.body tag) ++ signalBlock t.signal := by
  have hblocks : t.blocks
      = (sectionTags.flatMap fun tag => sectionBlock tag (t.body tag)) ++ signalBlock t.signal := by
    simp [blocks, sectionTags, body]
  -- empty sections are not written, so no block is lost with them
  have hfilter : ∀ tags : List Tag, (tags.flatMap fun tag => sectionBlock tag (t.body tag))
      = (tags.filter fun tag => !(t.body tag).isEmpty).map fun tag => tag.marker ++ lf :: t.body tag := by
    intro tags
    induction tags with
    | nil => rfl
    | cons tag tags ih =>
      rw [List.flatMap_cons, ih, sectionBlock]
      cases hbody : (t.body tag).isEmpty with
      | true => simp [hbody]
      | false => simp [hbody]
  rw [hblocks, hfilter]
  rfl

/-- A reply that is not complete is the rows of its turn. -/
theorem joinWith_rows (t : Turn) : Text.joinWith [lf] t.rows = Text.joinWith [lf] t.blocks := by
  have hne : ∀ tag, t.sectionRows tag ≠ [] := fun tag => List.cons_ne_nil _ _
  have hsection : ∀ tag, Text.joinWith [lf] (t.sectionRows tag) = tag.marker ++ lf :: t.body tag := by
    intro tag
    have hbody : Text.joinWith [lf] ((t.body tag).splitOn lf) = t.body tag :=
      Text.joinWith_splitOn lf _
    obtain ⟨first, rest, hsplit⟩ := List.exists_cons_of_ne_nil (List.splitOn_ne_nil lf (t.body tag))
    rw [hsplit] at hbody
    rw [sectionRows, hsplit, Text.joinWith_cons_cons, hbody, List.append_assoc, List.singleton_append]
  rw [rows, Text.joinWith_flatMap_append hne, blocks_eq]
  simp only [hsection]

/-- The paths of a canonical turn are plain, whatever its signal. -/
theorem Canonical.isPlainPath_of_mem {t : Turn} (h : t.Canonical) :
    ∀ r ∈ t.requests, Request.IsPlainPath r.path := by
  have hempty : t.requests = [] → ∀ r ∈ t.requests, Request.IsPlainPath r.path := by
    intro hnil r hr
    rw [hnil] at hr
    cases hr
  cases hsignal : t.signal with
  | none => exact h.isPlainPath hsignal
  | fin => exact hempty (congrArg Turn.requests (h.completed (.inl hsignal)))
  | noChangesNeeded => exact hempty (congrArg Turn.requests (h.completed (.inr hsignal)))
  | verificationReport => exact hempty (h.reviewed (.inl hsignal)).1
  | readyForFinalCheck => exact hempty (h.reviewed (.inr hsignal)).1

/-- The sections of a canonical turn are fields. -/
theorem Canonical.isField_body {t : Turn} (h : t.Canonical) (tag : Tag) : IsField (t.body tag) := by
  have hnil : IsField [] := ⟨rfl, by simp, fun l hl => absurd hl List.not_mem_nil⟩
  cases tag with
  | thought => exact h.isField _ (by simp [body])
  | plan => exact h.isField _ (by simp [body])
  | goals => exact h.isField _ (by simp [body])
  | requests => exact isField_requestsText h.isPlainPath_of_mem
  | patch => exact h.isField _ (by simp [body])
  | comment => exact h.isField _ (by simp [body])
  | ignored => exact hnil
  | verificationReport => exact hnil
  | finalCheck => exact hnil

/-- A line that is read as it is and completes nothing. -/
structure IsRow (row : Text) : Prop where
  lf_notMem : lf ∉ row
  getLast?_ne : row.getLast? ≠ some cr
  fin : Text.hasInfix Tag.finMarker row = false
  noChanges : Text.hasInfix Tag.noChangesMarker row = false

theorem isRow_marker (tag : Tag) : IsRow tag.marker := by
  cases tag <;> exact ⟨by decide, by decide, by decide, by decide⟩

theorem mem_signalBlock {s : Signal} {row : Text} (h : row ∈ signalBlock s) :
    ∃ tag : Tag, row = tag.marker := by
  cases s with
  | none => cases h
  | fin => cases h
  | noChangesNeeded => cases h
  | verificationReport => exact ⟨.verificationReport, List.mem_singleton.1 h⟩
  | readyForFinalCheck => exact ⟨.finalCheck, List.mem_singleton.1 h⟩

/-- A row is a delimiter or a line of a section. -/
theorem marker_or_mem_splitOn {t : Turn} {row : Text} (hrow : row ∈ t.rows) :
    (∃ tag : Tag, row = tag.marker) ∨ ∃ tag : Tag, row ∈ (t.body tag).splitOn lf := by
  rcases List.mem_append.1 hrow with hrow | hrow
  · obtain ⟨tag, -, hrow⟩ := List.mem_flatMap.1 hrow
    rcases List.mem_cons.1 hrow with rfl | hrow
    · exact .inl ⟨tag, rfl⟩
    · exact .inr ⟨tag, hrow⟩
  · exact .inl (mem_signalBlock hrow)

section Lined

variable {t : Turn} (h : ∀ tag, IsLined (t.body tag))

include h

/-- The last row is not empty. -/
theorem getLast?_rows : t.rows.getLast? ≠ some [] := by
  have hsections : (t.writtenTags.flatMap t.sectionRows).getLast? ≠ some [] := by
    rcases List.eq_nil_or_concat t.writtenTags with hnil | ⟨front, tag, hconcat⟩
    · rw [hnil]
      simp
    -- only the last section counts, and it is not empty and trimmed
    · have hmem : tag ∈ t.writtenTags := by simp [hconcat]
      have hne : t.body tag ≠ [] := by simpa using (List.mem_filter.1 hmem).2
      have hlast := Text.getLast?_splitOn_ne_nil (h tag).trim_eq hne
      obtain ⟨first, rest, hsplit⟩ := List.exists_cons_of_ne_nil (List.splitOn_ne_nil lf (t.body tag))
      rw [hsplit] at hlast
      simpa [hconcat, sectionRows, hsplit, List.getLast?_cons] using hlast
  have hmarker : ∀ tag : Tag, tag.marker ≠ [] := by
    intro tag
    cases tag <;> decide
  rw [rows]
  cases t.signal with
  | none => simpa [signalBlock] using hsections
  | fin => simpa [signalBlock] using hsections
  | noChangesNeeded => simpa [signalBlock] using hsections
  | verificationReport => simpa [signalBlock] using hmarker .verificationReport
  | readyForFinalCheck => simpa [signalBlock] using hmarker .finalCheck

/-- The reply is read line by line as its rows. -/
theorem lines_joinWith_rows : (Text.joinWith [lf] t.rows).lines.map Text.dropCr = t.rows := by
  by_cases hne : t.rows = []
  · rw [hne]
    rfl
  · refine Text.lines_joinWith hne (fun row hrow => ?_) (fun row hrow => ?_) (getLast?_rows h)
    · rcases marker_or_mem_splitOn hrow with ⟨tag, rfl⟩ | ⟨tag, hrow⟩
      · exact (isRow_marker tag).lf_notMem
      · exact Text.sep_notMem_of_mem_splitOn hrow
    · rcases marker_or_mem_splitOn hrow with ⟨tag, rfl⟩ | ⟨tag, hrow⟩
      · exact (isRow_marker tag).getLast?_ne
      · exact (h tag).getLast?_ne hrow

end Lined

section Rows

variable {t : Turn} (h : ∀ tag, IsField (t.body tag))

include h

theorem isRow_of_mem_rows {row : Text} (hrow : row ∈ t.rows) : IsRow row := by
  rcases marker_or_mem_splitOn hrow with ⟨tag, rfl⟩ | ⟨tag, hrow⟩
  · exact isRow_marker tag
  · obtain ⟨hcr, hfind⟩ := (h tag).of_mem_splitOn hrow
    exact ⟨Text.sep_notMem_of_mem_splitOn hrow, hcr, TagLine.hasInfix_finMarker hfind,
      TagLine.hasInfix_noChangesMarker hfind⟩

/-- The reply completes nothing. -/
theorem hasInfix_joinWith_rows :
    Text.hasInfix Tag.finMarker (Text.joinWith [lf] t.rows) = false ∧
      Text.hasInfix Tag.noChangesMarker (Text.joinWith [lf] t.rows) = false := by
  exact ⟨Text.hasInfix_joinWith_eq_false (by decide) (by decide) fun row hrow =>
      (isRow_of_mem_rows h hrow).fin,
    Text.hasInfix_joinWith_eq_false (by decide) (by decide) fun row hrow =>
      (isRow_of_mem_rows h hrow).noChanges⟩

end Rows

/-! ## The scan -/

/-- A line without a delimiter belongs to the section it stands in, if any. -/
theorem scanLines_plain {l : Text} (h : TagLine.find? l = none) (current : Option Tag)
    (rest : List Text) : scanLines current (l :: rest)
      = (current.toList.map (fun tag => (tag, l)) ++ (scanLines current rest).1,
          (scanLines current rest).2) := by
  rw [scanLines, h]
  cases current <;> rfl

/-- A delimiter that does not end the reply starts its section with what follows on its line. -/
theorem scanLines_delimiter {l after : Text} {tag : Tag} (h : TagLine.find? l = some ⟨tag, after⟩)
    (htag : tag.isTerminal = false) (current : Option Tag) (rest : List Text) :
    scanLines current (l :: rest)
      = ((if after.isEmpty then [] else [(tag, after)]) ++ (scanLines (some tag) rest).1,
          (scanLines (some tag) rest).2) := by
  have hstart : ∀ entries : List (Tag × Text),
      (if after.isEmpty then entries else (tag, after) :: entries)
        = (if after.isEmpty then [] else [(tag, after)]) ++ entries := by
    intro entries
    split <;> rfl
  rw [scanLines, h, ← hstart]
  cases tag with
  | verificationReport => cases htag
  | finalCheck => cases htag
  | _ => rfl

/-- Nothing is read behind a delimiter that ends the reply. -/
theorem scanLines_terminal {l after : Text} {tag : Tag} (h : TagLine.find? l = some ⟨tag, after⟩)
    (htag : tag.isTerminal = true) (current : Option Tag) (rest : List Text) :
    scanLines current (l :: rest)
      = ([], if tag = .verificationReport then .verificationReport else .readyForFinalCheck) := by
  rw [scanLines, h]
  cases tag with
  | verificationReport => rfl
  | finalCheck => rfl
  | _ => cases htag

/-- The lines of a section are kept with its tag. -/
theorem scanLines_append {ls : List Text} (h : ∀ l ∈ ls, TagLine.find? l = none) (tag : Tag)
    (rest : List Text) : scanLines (some tag) (ls ++ rest)
      = (ls.map (fun l => (tag, l)) ++ (scanLines (some tag) rest).1,
          (scanLines (some tag) rest).2) := by
  induction ls with
  | nil => rfl
  | cons l ls ih =>
    rw [List.forall_mem_cons] at h
    rw [List.cons_append, scanLines_plain h.1, ih h.2]
    rfl

/-- A delimiter that does not end the reply starts its section. -/
theorem scanLines_marker {tag : Tag} (h : tag.isTerminal = false) (current : Option Tag)
    (rest : List Text) : scanLines current (tag.marker :: rest) = scanLines (some tag) rest :=
  scanLines_delimiter (TagLine.find?_marker tag) h current rest

/-- The delimiter of a signal ends the reply. -/
theorem scanLines_signalBlock {s : Signal} (hfin : s ≠ .fin) (hnoChanges : s ≠ .noChangesNeeded)
    (current : Option Tag) : scanLines current (signalBlock s) = ([], s) := by
  cases s with
  | none => rfl
  | fin => exact absurd rfl hfin
  | noChangesNeeded => exact absurd rfl hnoChanges
  | verificationReport => exact scanLines_terminal (TagLine.find?_marker _) rfl current []
  | readyForFinalCheck => exact scanLines_terminal (TagLine.find?_marker _) rfl current []

theorem scanLines_sections {t : Turn} (h : ∀ tag, IsField (t.body tag)) {tags : List Tag}
    (htags : ∀ tag ∈ tags, tag.isTerminal = false) {rest : List Text} {signal : Signal}
    (hrest : ∀ current, scanLines current rest = ([], signal)) (current : Option Tag) :
    scanLines current (tags.flatMap t.sectionRows ++ rest)
      = (tags.flatMap t.sectionEntries, signal) := by
  induction tags generalizing current with
  | nil => exact hrest current
  | cons tag tags ih =>
    rw [List.forall_mem_cons] at htags
    have hlines : ∀ l ∈ (t.body tag).splitOn lf, TagLine.find? l = none :=
      fun l hl => ((h tag).of_mem_splitOn hl).2
    rw [List.flatMap_cons, List.append_assoc, sectionRows, List.cons_append,
      scanLines_marker htags.1, scanLines_append hlines, ih htags.2]
    rfl

/-- The scan gives each line of a section back with the tag of the section, and the signal. -/
theorem scanLines_rows {t : Turn} (h : ∀ tag, IsField (t.body tag)) (hfin : t.signal ≠ .fin)
    (hnoChanges : t.signal ≠ .noChangesNeeded) :
    scanLines none t.rows = (t.writtenTags.flatMap t.sectionEntries, t.signal) := by
  have htags : ∀ tag ∈ t.writtenTags, tag.isTerminal = false := by
    intro tag htag
    have hsections : ∀ tag ∈ sectionTags, tag.isTerminal = false := by decide
    exact hsections tag (List.mem_filter.1 htag).1
  exact scanLines_sections h htags (scanLines_signalBlock hfin hnoChanges) none

/-! ## Sections -/

/-- The lines with a tag are those of its section. -/
theorem filter_sectionEntries (t : Turn) (tag : Tag) (tags : List Tag) :
    (tags.flatMap t.sectionEntries).filter (fun e => e.1 = tag)
      = (tags.filter fun other => other = tag).flatMap t.sectionEntries := by
  induction tags with
  | nil => rfl
  | cons other tags ih =>
    have htag : ∀ e ∈ t.sectionEntries other, e.1 = other := by
      intro e he
      obtain ⟨l, -, rfl⟩ := List.mem_map.1 he
      rfl
    rw [List.flatMap_cons, List.filter_append, ih]
    by_cases hother : other = tag
    · have hall : (t.sectionEntries other).filter (fun e => e.1 = tag) = t.sectionEntries other :=
        List.filter_eq_self.2 fun e he => by simp [htag e he, hother]
      rw [hall, List.filter_cons_of_pos (by simpa using hother), List.flatMap_cons]
    · have hnone : (t.sectionEntries other).filter (fun e => e.1 = tag) = [] :=
        List.filter_eq_nil_iff.2 fun e he => by simp [htag e he, hother]
      rw [hnone, List.filter_cons_of_neg (by simpa using hother), List.nil_append]

/-- The text of each section is given back. -/
theorem sectionText_entries {t : Turn} (h : ∀ tag, IsField (t.body tag)) {tag : Tag}
    (htag : tag ∈ sectionTags) :
    sectionText (t.writtenTags.flatMap t.sectionEntries) tag = t.body tag := by
  -- each tag stands once among the sections, so its lines come from one section
  have honce : sectionTags.filter (fun other => other = tag) = [tag] := by
    revert tag
    decide
  have hwritten : t.writtenTags.filter (fun other => other = tag)
      = [tag].filter fun tag => !(t.body tag).isEmpty := by
    rw [writtenTags, List.filter_filter, ← honce, List.filter_filter]
    simp only [Bool.and_comm]
  rw [sectionText, filter_sectionEntries, hwritten]
  by_cases hbody : t.body tag = []
  · simp [hbody, Text.joinWith, Text.trim, Text.trimStart, Text.trimEnd, Text.dropEndWhile]
  · have hlines : ((t.sectionEntries tag).map Prod.snd) = (t.body tag).splitOn lf := by
      simp [sectionEntries, Function.comp_def]
    simp [hbody, hlines, Text.joinWith_splitOn, (h tag).trim_eq]

/-- A section that is never empty when it is set. -/
theorem nonEmpty?_getD {o : Option Text} (h : o ≠ some []) : nonEmpty? (o.getD []) = o := by
  cases o with
  | none => rfl
  | some s =>
    have hne : s ≠ [] := fun heq => h (congrArg some heq)
    simp [nonEmpty?, hne]

/-- The sections of a turn make the turn without its signal, with the requests that are read from
their section. -/
theorem ofSections_entries_of_isField {t : Turn} (h : ∀ tag, IsField (t.body tag))
    (hthought : t.thought ≠ some []) (hplan : t.plan ≠ some []) (hgoals : t.goals ≠ some []) :
    ofSections (t.writtenTags.flatMap t.sectionEntries)
      = { t with requests := Request.resolve (requestsText t.requests), signal := .none } := by
  have htext : ∀ tag ∈ sectionTags,
      sectionText (t.writtenTags.flatMap t.sectionEntries) tag = t.body tag :=
    fun tag htag => sectionText_entries h htag
  rw [ofSections, htext .thought (by decide), htext .plan (by decide), htext .goals (by decide),
    htext .requests (by decide), htext .patch (by decide), htext .comment (by decide)]
  simp only [body, nonEmpty?_getD hthought, nonEmpty?_getD hplan, nonEmpty?_getD hgoals]

/-- The sections of a canonical turn make the turn without its signal. -/
theorem ofSections_entries {t : Turn} (h : t.Canonical) :
    ofSections (t.writtenTags.flatMap t.sectionEntries) = { t with signal := .none } := by
  rw [ofSections_entries_of_isField h.isField_body h.thought_ne h.plan_ne h.goals_ne,
    Request.resolve_requestsText h.isPlainPath_of_mem]

/-! ## The reader -/

/-- A reply that starts with a delimiter, or is empty, is no JSON value. -/
theorem ofJson?_eq_none {raw : Text} (h : ∀ c ∈ raw.head?, c = '%') : ofJson? raw = none := by
  cases raw with
  | nil => rfl
  | cons c rest =>
    obtain rfl : c = '%' := h c rfl
    have hvisible : Text.isBlank '%' = false := by decide
    have htrim : Text.trim ('%' :: rest) = '%' :: Text.trimEnd rest := by
      rw [Text.trim, Text.trimStart, List.dropWhile_cons_of_neg (by simp [hvisible]),
        Text.trimEnd_cons hvisible]
    rw [ofJson?, htrim]
    rfl

/-- The reply starts with a delimiter, or is empty. -/
theorem head?_joinWith_rows (t : Turn) : ∀ c ∈ (Text.joinWith [lf] t.rows).head?, c = '%' := by
  have hmarker : ∀ (tag : Tag) (rest : List Text),
      ∀ c ∈ (Text.joinWith [lf] (tag.marker :: rest)).head?, c = '%' := by
    intro tag rest
    obtain ⟨name, hname⟩ : ∃ name, tag.marker = '%' :: name := by
      cases tag <;> exact ⟨_, rfl⟩
    rw [hname]
    cases rest with
    | nil => simp [Text.joinWith]
    | cons row rest => simp [Text.joinWith_cons_cons]
  rw [rows]
  cases t.writtenTags with
  | nil =>
    rw [List.flatMap_nil, List.nil_append]
    cases t.signal with
    | verificationReport => exact hmarker .verificationReport []
    | readyForFinalCheck => exact hmarker .finalCheck []
    | _ => exact fun c hc => absurd hc (Option.not_mem_none c)
  | cons tag tags =>
    rw [List.flatMap_cons, sectionRows, List.cons_append, List.cons_append]
    exact hmarker tag _

/-- A turn is finished as it is when it requests each path once and its plan has nothing to add. -/
theorem finish_eq_self {t : Turn} (hnodup : (t.requests.map Request.path).Nodup)
    (hunplanned : t.requests = [] → ∀ plan ∈ t.plan, Request.ofPlan plan = []) : finish t = t := by
  have hkeep : { t with requests := Request.distinct t.requests } = t := by
    rw [Request.distinct_eq_self hnodup]
  -- the plan is asked for files only when nothing is requested
  cases hrequests : t.requests with
  | nil =>
    cases hplan : t.plan with
    | none => simpa only [finish, hrequests, hplan] using hkeep
    | some plan =>
      simpa only [finish, hrequests, hplan, hunplanned hrequests plan hplan] using hkeep
  | cons r rs => simpa only [finish, hrequests] using hkeep

/-- The reply of a canonical turn that is not complete is divided as it was put together. -/
theorem ofDelimited_rows {t : Turn} (h : t.Canonical) (hfin : t.signal ≠ .fin)
    (hnoChanges : t.signal ≠ .noChangesNeeded) : ofDelimited (Text.joinWith [lf] t.rows) = t := by
  have hsections := ofSections_entries h
  -- a review signal drops requests and the patch, of which the turn has none
  have hreview : t.signal = .verificationReport ∨ t.signal = .readyForFinalCheck →
      { ofSections (t.writtenTags.flatMap t.sectionEntries) with
        requests := [], patch := [], signal := t.signal } = t := by
    intro hsignal
    obtain ⟨hrequests, hpatch⟩ := h.reviewed hsignal
    rw [hsections, ← hrequests, ← hpatch]
  rw [ofDelimited, lines_joinWith_rows fun tag => (h.isField_body tag).isLined,
    scanLines_rows h.isField_body hfin hnoChanges]
  cases hsignal : t.signal with
  | none =>
    have hfinish : finish { t with signal := .none } = t := by
      rw [← hsignal]
      exact finish_eq_self (h.nodup hsignal) (h.unplanned hsignal)
    rw [← hsections] at hfinish
    exact hfinish
  | fin => exact absurd hsignal hfin
  | noChangesNeeded => exact absurd hsignal hnoChanges
  | verificationReport =>
    rw [hsignal] at hreview
    exact hreview (.inl rfl)
  | readyForFinalCheck =>
    rw [hsignal] at hreview
    exact hreview (.inr rfl)

/-- The canonical reply of a canonical turn reads as that turn. -/
theorem parse_toTagText {t : Turn} (h : t.Canonical) : parse t.toTagText = t := by
  have hreply : t.signal ≠ .fin → t.signal ≠ .noChangesNeeded → parse t.toTagText = t := by
    intro hfin hnoChanges
    -- neither the markers of completion nor JSON are found, so the reply is divided at delimiters
    have htext : t.toTagText = Text.joinWith [lf] t.rows := by
      rw [joinWith_rows, toTagText]
      cases hsignal : t.signal with
      | fin => exact absurd hsignal hfin
      | noChangesNeeded => exact absurd hsignal hnoChanges
      | _ => rfl
    obtain ⟨hnoFin, hnoNoChanges⟩ := hasInfix_joinWith_rows h.isField_body
    rw [parse, htext, hnoFin, hnoNoChanges, ofJson?_eq_none (head?_joinWith_rows t)]
    exact ofDelimited_rows h hfin hnoChanges
  cases hsignal : t.signal with
  | fin =>
    -- the marker is the whole reply, and the turn holds nothing else
    have ht := h.completed (.inl hsignal)
    rw [hsignal] at ht
    rw [ht]
    rfl
  | noChangesNeeded =>
    have ht := h.completed (.inr hsignal)
    rw [hsignal] at ht
    rw [ht]
    rfl
  | none => exact hreply (by simp [hsignal]) (by simp [hsignal])
  | verificationReport => exact hreply (by simp [hsignal]) (by simp [hsignal])
  | readyForFinalCheck => exact hreply (by simp [hsignal]) (by simp [hsignal])

/-- A turn with quotes, brackets, a backslash and a line feed in a path. -/
def sample : Turn where
  thought := some "A bug.\n\n  %_ 100 %\rdone".toList
  requests := [⟨.file, "a \"b\"\\[c].go".toList⟩, ⟨.listing, "src\n\x7bd".toList⟩]
  comment := "See [1].".toList

theorem canonical_sample : sample.Canonical where
  thought_ne := by decide
  plan_ne := by decide
  goals_ne := by decide
  isField := by decide
  completed := by decide
  reviewed := by decide
  isPlainPath := by decide
  nodup := by decide
  unplanned := by decide

theorem parse_toTagText_sample : sample.Canonical ∧ parse sample.toTagText = sample :=
  ⟨canonical_sample, parse_toTagText canonical_sample⟩

end Turn

end Mend
