import Mend.Proofs.Turn.RoundTrip

/-!
# Reading the canonical reply of a turn that was read

The canonical reply of a turn that was read from a reply need not read as that turn
(`Turn.parse_toTagText_parse_ne`): the reader leaves delimiters, carriage returns and typographic
quotes in places where it does not take them as they are when it reads them again. It does read as
that turn exactly when the texts of the turn are fields and its requests are read from what is
written for them (`Turn.parse_toTagText_parse_iff`), as those with plain paths are
(`Turn.IsParsed.rereadRequests_eq`).

That nothing else helps is a matter of counting. Reading gives each character of a reply to one
section at most, and keeps no carriage return before a line feed and no percent sign of a delimiter
(`Turn.count_scanLines_le`). So a turn that is read again has lost none: each line of its texts is
the line that was written, and the delimiters of the reply are those of its sections.
-/

namespace Mend

open Text (lf cr)

/-! ## Counting characters -/

namespace Text

/-- Joining lines adds line feeds only. -/
theorem count_joinWith {c : Char} (hc : c ≠ lf) (ls : List Text) :
    (joinWith [lf] ls).count c = ls.flatten.count c := by
  induction ls with
  | nil => rfl
  | cons l ls ih =>
    cases ls with
    | nil => simp [joinWith]
    | cons k ls =>
      rw [joinWith_cons_cons, List.append_assoc, List.singleton_append, List.count_append,
        List.count_cons_of_ne hc.symm, ih, ← List.count_append]
      rfl

theorem count_dropWhile {p : Char → Bool} {c : Char} (hc : p c = false) (t : Text) :
    (t.dropWhile p).count c = t.count c := by
  induction t with
  | nil => rfl
  | cons d t ih =>
    by_cases hd : p d = true
    · have hne : d ≠ c := by
        rintro rfl
        exact absurd (hd.symm.trans hc) Bool.noConfusion
      rw [List.dropWhile_cons_of_pos hd, ih, List.count_cons_of_ne hne]
    · rw [List.dropWhile_cons_of_neg hd]

/-- Trimming drops blanks only. -/
theorem count_trim {c : Char} (hc : isBlank c = false) (t : Text) : t.trim.count c = t.count c := by
  rw [trim, trimEnd, dropEndWhile, List.count_reverse, count_dropWhile hc, List.count_reverse,
    trimStart, count_dropWhile hc]

/-- A line loses its carriage return. -/
theorem count_dropCr_lt {t : Text} (h : t.getLast? = some cr) :
    (dropCr t).count cr < t.count cr := by
  obtain ⟨front, rfl⟩ := List.getLast?_eq_some_iff.1 h
  rw [dropCr, dropSuffix_append, List.count_append, List.count_singleton_self]
  exact Nat.lt_succ_self _

/-- Reading lines adds nothing. -/
theorem linesOfPieces_count_le (c : Char) (ps : List Text) :
    ((linesOfPieces ps).map dropCr).flatten.count c ≤ ps.flatten.count c := by
  have hdrop : ∀ t : Text, (dropCr t).count c ≤ t.count c := fun t => (dropCr_sublist t).count_le c
  induction ps with
  | nil => exact Nat.le_refl _
  | cons p ps ih =>
    cases ps with
    | nil =>
      -- the last piece is no line when it is empty
      rw [linesOfPieces]
      split
      · exact Nat.zero_le _
      · simpa using hdrop p
    | cons q ps =>
      rw [linesOfPieces, List.map_cons, List.flatten_cons, List.flatten_cons, List.count_append,
        List.count_append]
      · have hp := hdrop p
        have hp' := hdrop (dropCr p)
        omega
      · simp

/-- Reading lines loses the carriage return that one of the pieces ends with. -/
theorem linesOfPieces_count_lt {ps : List Text} {p : Text} (hp : p ∈ ps)
    (hcr : p.getLast? = some cr) :
    ((linesOfPieces ps).map dropCr).flatten.count cr < ps.flatten.count cr := by
  have hdrop : ∀ t : Text, (dropCr t).count cr ≤ t.count cr :=
    fun t => (dropCr_sublist t).count_le cr
  induction ps with
  | nil => cases hp
  | cons q ps ih =>
    cases ps with
    | nil =>
      obtain rfl : p = q := List.mem_singleton.1 hp
      have hne : p.isEmpty = false := by
        cases p with
        | nil => cases hcr
        | cons c p => rfl
      rw [linesOfPieces, hne]
      simpa using count_dropCr_lt hcr
    | cons r ps =>
      have hrest := linesOfPieces_count_le cr (r :: ps)
      have hq := hdrop q
      have hq' := hdrop (dropCr q)
      rw [linesOfPieces, List.map_cons, List.flatten_cons, List.flatten_cons, List.count_append,
        List.count_append]
      · -- what one line loses no other line gains
        rcases List.mem_cons.1 hp with rfl | hp
        · have hlost := count_dropCr_lt hcr
          omega
        · have hlost := ih hp
          omega
      · simp

/-- A line is a piece between line feeds when no piece ends with a carriage return. -/
theorem mem_of_mem_linesOfPieces {ps : List Text} (hcr : ∀ p ∈ ps, p.getLast? ≠ some cr) {l : Text}
    (hl : l ∈ linesOfPieces ps) : l ∈ ps := by
  induction ps with
  | nil => cases hl
  | cons p ps ih =>
    rw [List.forall_mem_cons] at hcr
    cases ps with
    | nil =>
      rw [linesOfPieces] at hl
      split at hl
      · cases hl
      · exact hl
    | cons q ps =>
      rw [linesOfPieces, dropCr_eq_self hcr.1] at hl
      · rcases List.mem_cons.1 hl with rfl | hl
        · exact List.mem_cons_self ..
        · exact List.mem_cons_of_mem _ (ih hcr.2 hl)
      · simp

/-- A carriage return before a line feed ends a piece between line feeds. -/
theorem exists_getLast?_of_crlf {t : Text} (h : [cr, lf] <:+: t) :
    ∃ p ∈ t.splitOn lf, p.getLast? = some cr := by
  obtain ⟨a, b, rfl⟩ := h
  -- the line feed divides the text behind the carriage return
  have hlast : ∃ p ∈ (a ++ [cr]).splitOn lf, p.getLast? = some cr := by
    induction a with
    | nil => exact ⟨[cr], by decide, rfl⟩
    | cons c a ih =>
      obtain ⟨p, hp, hcr⟩ := ih
      rw [List.cons_append, List.splitOn_cons_eq_if_modifyHead]
      split
      · exact ⟨p, List.mem_cons_of_mem _ hp, hcr⟩
      · obtain ⟨first, rest, hsplit⟩ :=
          List.exists_cons_of_ne_nil (List.splitOn_ne_nil lf (a ++ [cr]))
        rw [hsplit] at hp ⊢
        rcases List.mem_cons.1 hp with rfl | hp
        · refine ⟨c :: p, List.mem_cons_self .., ?_⟩
          rw [List.getLast?_cons, hcr]
          rfl
        · exact ⟨p, List.mem_cons_of_mem _ hp, hcr⟩
  obtain ⟨p, hp, hcr⟩ := hlast
  refine ⟨p, ?_, hcr⟩
  rw [show a ++ [cr, lf] ++ b = a ++ [cr] ++ lf :: b by simp, splitOn_append_cons]
  exact List.mem_append_left _ hp

end Text

/-! ## Delimiters -/

namespace TagLine

/-- The characters of a delimiter other than those of its name. -/
def frame : Text := opener ++ closer

theorem exists_of_nameTail? {taken t name after : Text}
    (h : nameTail? taken t = some (name, after)) : ∃ mid, t = mid ++ closer ++ after := by
  induction t generalizing taken with
  | nil => cases h
  | cons c t ih =>
    rw [nameTail?] at h
    split at h
    · rename_i hcloser
      obtain ⟨tail, htail⟩ := List.isPrefixOf_iff_prefix.1 hcloser
      cases htail
      cases h
      exact ⟨[], rfl⟩
    · split at h
      · obtain ⟨mid, rfl⟩ := ih h
        exact ⟨c :: mid, rfl⟩
      · cases h

theorem exists_of_nameAtStart? {t name after : Text} (h : nameAtStart? t = some (name, after)) :
    ∃ mid, t = opener ++ mid ++ closer ++ after := by
  unfold nameAtStart? at h
  split at h
  · rename_i c rest hopener
    split at h
    · obtain ⟨mid, rfl⟩ := exists_of_nameTail? h
      exact ⟨c :: mid, by simpa using Text.eq_append_of_dropPrefix? hopener⟩
    · cases h
  · cases h

/-- A text with a delimiter in it. -/
theorem exists_of_firstName? {t name after : Text} (h : firstName? t = some (name, after)) :
    ∃ front mid, t = front ++ opener ++ mid ++ closer ++ after := by
  induction t with
  | nil => cases h
  | cons c t ih =>
    rw [firstName?] at h
    split at h
    · rename_i found hstart
      cases h
      obtain ⟨mid, hmid⟩ := exists_of_nameAtStart? hstart
      exact ⟨[], mid, hmid⟩
    · obtain ⟨front, mid, rfl⟩ := ih h
      exact ⟨c :: front, mid, rfl⟩

/-- What follows a delimiter holds nothing of it. -/
theorem count_rest_le {line : Text} {found : TagLine} (h : find? line = some found) (c : Char) :
    found.rest.count c + frame.count c ≤ line.count c := by
  obtain ⟨⟨name, after⟩, hfirst, rfl⟩ := Option.map_eq_some_iff.1 h
  obtain ⟨front, mid, rfl⟩ := exists_of_firstName? hfirst
  have hafter : after.trim.count c ≤ after.count c := (Text.trim_sublist after).count_le c
  simp only [frame, List.count_append]
  omega

/-- Whether a line holds a delimiter. -/
def isDelimited (line : Text) : Bool := (find? line).isSome

theorem isDelimited_of_find? {line : Text} {found : TagLine} (h : find? line = some found) :
    isDelimited line = true := by
  rw [isDelimited, h]
  rfl

theorem isDelimited_of_none {line : Text} (h : find? line = none) : isDelimited line = false := by
  rw [isDelimited, h]
  rfl

end TagLine

namespace Turn

/-- The texts of some lines that have tags. -/
def entryTexts (entries : List (Tag × Text)) : List Text := entries.map Prod.snd

/-- The scan gives each character to one section at most, and the frame of a delimiter to none. -/
theorem count_scanLines_le (c : Char) (current : Option Tag) (ls : List Text) :
    (entryTexts (scanLines current ls).1).flatten.count c
        + TagLine.frame.count c * ls.countP TagLine.isDelimited
      ≤ ls.flatten.count c := by
  induction ls generalizing current with
  | nil => exact Nat.le_refl _
  | cons line ls ih =>
    rw [List.flatten_cons, List.count_append, List.countP_cons]
    cases hfind : TagLine.find? line with
    | none =>
      rw [scanLines_plain hfind, TagLine.isDelimited_of_none hfind]
      have hrest := ih current
      -- a line before the first section is dropped
      cases current with
      | none =>
        simp only [Option.toList_none, List.map_nil, List.nil_append, Bool.false_eq_true, if_false,
          Nat.add_zero]
        omega
      | some tag =>
        simp only [entryTexts, Option.toList_some, List.map_cons, List.map_nil,
          List.singleton_append, List.flatten_cons, List.count_append, Bool.false_eq_true, if_false,
          Nat.add_zero] at hrest ⊢
        omega
    | some found =>
      obtain ⟨tag, after⟩ := found
      rw [TagLine.isDelimited_of_find? hfind, if_pos rfl]
      have hline : after.count c + TagLine.frame.count c ≤ line.count c :=
        TagLine.count_rest_le hfind c
      have hrest := ih (some tag)
      have hcount : TagLine.frame.count c * (ls.countP TagLine.isDelimited + 1)
          = TagLine.frame.count c * ls.countP TagLine.isDelimited + TagLine.frame.count c :=
        Nat.mul_succ ..
      cases htag : tag.isTerminal with
      | true =>
        -- the lines after a delimiter that ends the reply are not read, but hold theirs all the same
        rw [scanLines_terminal hfind htag]
        simp only [entryTexts, List.map_nil, List.flatten_nil, List.count_nil]
        omega
      | false =>
        rw [scanLines_delimiter hfind htag]
        simp only [entryTexts, List.map_append, List.flatten_append, List.count_append] at hrest ⊢
        split
        · simp only [List.map_nil, List.flatten_nil, List.count_nil]
          omega
        · simp only [List.map_cons, List.map_nil, List.flatten_cons, List.flatten_nil,
            List.append_nil]
          omega

/-! ## The texts of a turn -/

/-- The tags of the sections that are texts of a turn. -/
def textTags : List Tag := [.thought, .plan, .goals, .patch, .comment]

/-- The texts of a turn. -/
def texts (t : Turn) : List Text := textTags.map t.body

theorem mem_texts {t : Turn} {s : Text} (h : s ∈ t.texts) : ∃ tag ∈ textTags, t.body tag = s :=
  List.mem_map.1 h

/-- The sections are the texts and the requests. -/
theorem sum_sectionTags (t : Turn) (c : Char) :
    (sectionTags.map fun tag => (t.body tag).count c).sum
      = t.texts.flatten.count c + (requestsText t.requests).count c := by
  simp only [sectionTags, texts, textTags, body, List.map_cons, List.map_nil, List.sum_cons,
    List.sum_nil, List.flatten_cons, List.flatten_nil, List.count_append, List.count_nil]
  omega

theorem nonEmpty?_ne (s : Text) : nonEmpty? s ≠ some [] := by
  cases s with
  | nil => simp [nonEmpty?]
  | cons c s => simp [nonEmpty?]

@[simp]
theorem getD_nonEmpty? (s : Text) : (nonEmpty? s).getD [] = s := by
  cases s with
  | nil => rfl
  | cons c s => rfl

section Counting

variable {c : Char}

/-- The texts of the entries with a tag. -/
def part (entries : List (Tag × Text)) (tag : Tag) : List Text :=
  entryTexts (entries.filter fun e => e.1 = tag)

/-- The sections share the characters of the entries. -/
theorem sum_part_le (c : Char) (entries : List (Tag × Text)) :
    (sectionTags.map fun tag => (part entries tag).flatten.count c).sum
      ≤ (entryTexts entries).flatten.count c := by
  induction entries with
  | nil => exact Nat.zero_le _
  | cons e entries ih =>
    -- an entry is in the part of its tag only
    obtain ⟨tag, l⟩ := e
    simp only [sectionTags, List.map_cons, List.map_nil, List.sum_cons, List.sum_nil, part] at ih ⊢
    cases tag <;> simp [entryTexts] at ih ⊢ <;> omega

theorem sum_sectionText_le (hc : c ≠ lf) (entries : List (Tag × Text)) (tags : List Tag) :
    (tags.map fun tag => (sectionText entries tag).count c).sum
      ≤ (tags.map fun tag => (part entries tag).flatten.count c).sum := by
  induction tags with
  | nil => exact Nat.le_refl _
  | cons tag tags ih =>
    have htag : (sectionText entries tag).count c ≤ (part entries tag).flatten.count c := by
      rw [← Text.count_joinWith hc]
      exact (Text.trim_sublist _).count_le c
    rw [List.map_cons, List.sum_cons, List.map_cons, List.sum_cons]
    exact Nat.add_le_add htag ih

/-- A reply has the texts of its turn and the section of the requests beside each other. -/
theorem count_texts_le (hc : c ≠ lf) {raw : Text} {entries : List (Tag × Text)} {signal : Signal}
    (h : scanLines none (raw.lines.map Text.dropCr) = (entries, signal)) :
    (ofDelimited raw).texts.flatten.count c + (sectionText entries .requests).count c
      ≤ (entryTexts entries).flatten.count c := by
  have hsum := Nat.le_trans (sum_sectionText_le hc entries sectionTags) (sum_part_le c entries)
  simp only [sectionTags, List.map_cons, List.map_nil, List.sum_cons, List.sum_nil] at hsum
  rw [ofDelimited, h]
  -- a review signal drops the patch, and the other texts are the same
  cases signal with
  | none =>
    simp [texts, textTags, body, finish, ofSections]
    omega
  | _ =>
    simp [texts, textTags, body, ofSections]
    omega

/-- What is in a section is kept but for blanks. -/
theorem le_count_sectionText (hc : Text.isBlank c = false) {entries : List (Tag × Text)} {tag : Tag}
    {row : Text} (h : (tag, row) ∈ entries) : row.count c ≤ (sectionText entries tag).count c := by
  have hlf : c ≠ lf := by
    rintro rfl
    revert hc
    decide
  have hmem : row ∈ (entries.filter fun e => e.1 = tag).map Prod.snd :=
    List.mem_map.2 ⟨(tag, row), List.mem_filter.2 ⟨h, by simp⟩, rfl⟩
  rw [sectionText, Text.count_trim hc, Text.count_joinWith hlf]
  exact (List.sublist_flatten_of_mem hmem).count_le c

end Counting

/-! ## Rows -/

/-- The delimiters among the lines of a text. -/
def delimited (t : Text) : Nat := (t.splitOn lf).countP TagLine.isDelimited

/-- A character of which a delimiter has as many as its frame. -/
structure IsFrameChar (c : Char) : Prop where
  ne_lf : c ≠ lf
  count_marker : ∀ tag : Tag, tag.marker.count c = TagLine.frame.count c

theorem isFrameChar_percent : IsFrameChar '%' :=
  ⟨by decide, fun tag => by cases tag <;> decide +kernel⟩

theorem isFrameChar_cr : IsFrameChar cr :=
  ⟨by decide, fun tag => by cases tag <;> decide +kernel⟩

section Rows

variable {c : Char} (hc : IsFrameChar c) (t : Turn)

include hc

/-- The rows of sections have the characters of their texts and the frame of each delimiter, those
in the texts aside. -/
theorem count_sectionRows (tags : List Tag) :
    (tags.flatMap t.sectionRows).flatten.count c
        + TagLine.frame.count c * (tags.map fun tag => delimited (t.body tag)).sum
      = TagLine.frame.count c * (tags.flatMap t.sectionRows).countP TagLine.isDelimited
        + (tags.map fun tag => (t.body tag).count c).sum := by
  induction tags with
  | nil => rfl
  | cons tag tags ih =>
    have hmarker : TagLine.isDelimited tag.marker = true :=
      TagLine.isDelimited_of_find? (TagLine.find?_marker tag)
    have hbody : ((t.body tag).splitOn lf).flatten.count c = (t.body tag).count c := by
      rw [← Text.count_joinWith hc.ne_lf, Text.joinWith_splitOn]
    simp only [List.flatMap_cons, List.flatten_append, List.count_append, List.countP_append,
      List.map_cons, List.sum_cons, sectionRows, List.flatten_cons, List.countP_cons, hmarker,
      hbody, hc.count_marker, if_true, Nat.mul_add, Nat.mul_one] at ih ⊢
    rw [delimited]
    omega

theorem count_signalBlock (s : Signal) :
    (signalBlock s).flatten.count c
      = TagLine.frame.count c * (signalBlock s).countP TagLine.isDelimited := by
  have hmarker : ∀ tag : Tag, [tag.marker].flatten.count c
      = TagLine.frame.count c * [tag.marker].countP TagLine.isDelimited := by
    intro tag
    have hdelimited : TagLine.isDelimited tag.marker = true :=
      TagLine.isDelimited_of_find? (TagLine.find?_marker tag)
    simp [hdelimited, hc.count_marker]
  cases s with
  | none => rfl
  | fin => rfl
  | noChangesNeeded => rfl
  | verificationReport => exact hmarker .verificationReport
  | readyForFinalCheck => exact hmarker .finalCheck

omit hc in
/-- Sections that are not written hold nothing. -/
theorem sum_writtenTags (c : Char) :
    (t.writtenTags.map fun tag => (t.body tag).count c).sum
      = t.texts.flatten.count c + (requestsText t.requests).count c := by
  rw [← sum_sectionTags, writtenTags]
  induction sectionTags with
  | nil => rfl
  | cons tag tags ih =>
    rw [List.map_cons, List.sum_cons]
    cases hbody : t.body tag with
    | nil =>
      rw [List.filter_cons_of_neg (by simp [hbody]), ih]
      simp
    | cons d rest =>
      rw [List.filter_cons_of_pos (by simp [hbody]), List.map_cons, List.sum_cons, ih, hbody]

/-- The rows have the characters of the texts and of the requests, and the frame of each delimiter,
those in the sections aside. -/
theorem count_rows :
    t.rows.flatten.count c
        + TagLine.frame.count c * (t.writtenTags.map fun tag => delimited (t.body tag)).sum
      = TagLine.frame.count c * t.rows.countP TagLine.isDelimited
        + (t.texts.flatten.count c + (requestsText t.requests).count c) := by
  have hsections := count_sectionRows hc t t.writtenTags
  have hsignal := count_signalBlock hc t.signal
  rw [sum_writtenTags] at hsections
  rw [rows, List.flatten_append, List.count_append, List.countP_append, Nat.mul_add]
  omega

end Rows

/-! ## What is read again is kept -/

/-- A line after a delimiter is in its section, when the reply is not ended before. -/
theorem mem_scanLines (tag : Tag) (htag : tag.isTerminal = false) {row : Text}
    (hrow : TagLine.find? row = none) {front back : List Text} {current : Option Tag}
    (h : (scanLines current (front ++ tag.marker :: row :: back)).2 = .none) :
    (tag, row) ∈ (scanLines current (front ++ tag.marker :: row :: back)).1 := by
  induction front generalizing current with
  | nil =>
    rw [List.nil_append, scanLines_marker htag, scanLines_plain hrow]
    exact List.mem_cons_self ..
  | cons line front ih =>
    rw [List.cons_append] at h ⊢
    cases hfind : TagLine.find? line with
    | none =>
      rw [scanLines_plain hfind] at h ⊢
      exact List.mem_append_right _ (ih h)
    | some found =>
      obtain ⟨other, after⟩ := found
      -- only a delimiter that ends the reply keeps what follows from being read
      cases hother : other.isTerminal with
      | true =>
        rw [scanLines_terminal hfind hother] at h
        dsimp only at h
        split at h <;> cases h
      | false =>
        rw [scanLines_delimiter hfind hother] at h ⊢
        exact List.mem_append_right _ (ih h)

/-- The lines of a text that is not empty are rows. -/
theorem mem_rows {t : Turn} {tag : Tag} (htag : tag ∈ sectionTags) {l : Text}
    (hl : l ∈ (t.body tag).splitOn lf) (hne : t.body tag ≠ []) : l ∈ t.rows := by
  refine List.mem_append_left _ (List.mem_flatMap.2 ⟨tag, ?_, List.mem_cons_of_mem _ hl⟩)
  exact List.mem_filter.2 ⟨htag, by simp [hne]⟩

theorem mem_sectionTags {tag : Tag} (h : tag ∈ textTags) : tag ∈ sectionTags := by
  revert tag
  decide

/-- The reply of a turn with a row is divided into its rows at line feeds. -/
theorem splitOn_joinWith_rows {t : Turn} (hne : t.rows ≠ []) :
    (Text.joinWith [lf] t.rows).splitOn lf = t.rows := by
  refine List.splitOn_intercalate lf (fun row hrow => ?_) hne
  rcases marker_or_mem_splitOn hrow with ⟨tag, rfl⟩ | ⟨tag, hrow⟩
  · exact (isRow_marker tag).lf_notMem
  · exact Text.sep_notMem_of_mem_splitOn hrow

theorem cr_notMem_requestsText (rs : List Request) : cr ∉ requestsText rs := by
  intro hmem
  by_cases h : rs = []
  · rw [h] at hmem
    cases hmem
  · rw [Request.requestsText_eq h] at hmem
    have hlow := Json.le_toNat_compact (Request.isReadable_listJson rs) cr hmem
    revert hlow
    decide

section Kept

variable {t : Turn}

/-- A turn that is read again holds no carriage return before a line feed. -/
theorem no_crlf_of_reread (h : ofDelimited (Text.joinWith [lf] t.rows) = t) :
    ∀ s ∈ t.texts, ¬ [cr, lf] <:+: s := by
  intro s hs hcrlf
  obtain ⟨tag, htag, rfl⟩ := mem_texts hs
  obtain ⟨p, hp, hcr⟩ := Text.exists_getLast?_of_crlf hcrlf
  have hne : t.body tag ≠ [] := by
    intro hnil
    rw [hnil] at hcrlf
    exact absurd (List.infix_nil.1 hcrlf) (List.cons_ne_nil _ _)
  have hmem : p ∈ t.rows := mem_rows (mem_sectionTags htag) hp hne
  have hrows : t.rows ≠ [] := List.ne_nil_of_mem hmem
  -- the carriage return is lost, so the sections hold fewer than the texts
  rcases hscan : scanLines none ((Text.joinWith [lf] t.rows).lines.map Text.dropCr) with
    ⟨entries, signal⟩
  have hlost := Text.linesOfPieces_count_lt hmem hcr
  have hread := count_scanLines_le cr none ((Text.joinWith [lf] t.rows).lines.map Text.dropCr)
  have htexts := count_texts_le isFrameChar_cr.ne_lf hscan
  have hwritten := count_rows isFrameChar_cr t
  have hrequests : (requestsText t.requests).count cr = 0 :=
    List.count_eq_zero.2 (cr_notMem_requestsText t.requests)
  have hframe : TagLine.frame.count cr = 0 := rfl
  rw [hscan, Text.lines, splitOn_joinWith_rows hrows, hframe] at hread
  dsimp only at hread
  rw [h] at htexts
  rw [hframe] at hwritten
  omega

/-- The sections of a trimmed turn are given back line by line, as the requests are one line. -/
theorem isLined_body (htrim : ∀ s ∈ t.texts, s.trim = s) (hcrlf : ∀ s ∈ t.texts, ¬ [cr, lf] <:+: s)
    (tag : Tag) : IsLined (t.body tag) := by
  have hnil : IsLined [] := ⟨rfl, by simp⟩
  have htext : ∀ tag ∈ textTags, IsLined (t.body tag) := fun tag htag =>
    ⟨htrim _ (List.mem_map_of_mem htag), hcrlf _ (List.mem_map_of_mem htag)⟩
  cases tag with
  | requests =>
    refine ⟨Request.trim_requestsText t.requests, fun hfound => ?_⟩
    exact cr_notMem_requestsText t.requests (hfound.subset (List.mem_cons_self ..))
  | ignored => exact hnil
  | verificationReport => exact hnil
  | finalCheck => exact hnil
  | _ => exact htext _ (by decide)

theorem signal_ofDelimited {raw : Text} {entries : List (Tag × Text)} {signal : Signal}
    (h : scanLines none (raw.lines.map Text.dropCr) = (entries, signal)) :
    (ofDelimited raw).signal = signal := by
  rw [ofDelimited, h]
  cases signal <;> rfl

/-- What is written for the requests is in their section. -/
theorem count_requestsText_le (hrequests : TagLine.find? (requestsText t.requests) = none)
    {entries : List (Tag × Text)} (h : scanLines none t.rows = (entries, .none)) {c : Char}
    (hc : Text.isBlank c = false) :
    (requestsText t.requests).count c ≤ (sectionText entries .requests).count c := by
  by_cases hnil : t.requests = []
  · rw [hnil]
    exact Nat.zero_le _
  have hwritten : Tag.requests ∈ t.writtenTags := by
    obtain ⟨inner, hinner⟩ := Request.exists_requestsText hnil
    exact List.mem_filter.2 ⟨by decide, by simp [body, hinner]⟩
  obtain ⟨front, back, htags⟩ := List.append_of_mem hwritten
  -- the section of the requests is a marker and one line
  have hrow : t.sectionRows .requests = [Tag.marker .requests, requestsText t.requests] := by
    rw [sectionRows, body, List.splitOn_eq_singleton (Request.lf_notMem_requestsText t.requests)]
  have hrows : t.rows = front.flatMap t.sectionRows ++ Tag.marker .requests ::
      requestsText t.requests :: (back.flatMap t.sectionRows ++ signalBlock t.signal) := by
    rw [rows, htags, List.flatMap_append, List.flatMap_cons, hrow]
    simp
  rw [hrows] at h
  have hmem := mem_scanLines .requests rfl hrequests (congrArg Prod.snd h)
  rw [h] at hmem
  exact le_count_sectionText hc hmem

/-- A trimmed turn that is read again holds no delimiter, if its requests hold none. -/
theorem no_delimiter_of_reread (htrim : ∀ s ∈ t.texts, s.trim = s)
    (hreviewed : t.signal ≠ .none → t.requests = [])
    (hrequests : TagLine.find? (requestsText t.requests) = none)
    (h : ofDelimited (Text.joinWith [lf] t.rows) = t) :
    ∀ tag ∈ textTags, ∀ l ∈ (t.body tag).splitOn lf, TagLine.find? l = none := by
  have hlines := lines_joinWith_rows (isLined_body htrim (no_crlf_of_reread h))
  rcases hscan : scanLines none t.rows with ⟨entries, signal⟩
  rw [← hlines] at hscan
  have hsignal : t.signal = signal := by
    rw [← signal_ofDelimited hscan, h]
  have htexts := count_texts_le isFrameChar_percent.ne_lf hscan
  rw [h] at htexts
  rw [hlines] at hscan
  have hkept : (requestsText t.requests).count '%' ≤ (sectionText entries .requests).count '%' := by
    by_cases hnone : t.signal = .none
    · rw [← hsignal, hnone] at hscan
      exact count_requestsText_le hrequests hscan (by decide)
    · rw [hreviewed hnone]
      exact Nat.zero_le _
  -- the delimiters of the sections use up the frames that are lost
  have hread := count_scanLines_le '%' none t.rows
  have hwritten := count_rows isFrameChar_percent t
  have hframe : TagLine.frame.count '%' = 2 := rfl
  rw [hscan, hframe] at hread
  dsimp only at hread
  rw [hframe] at hwritten
  have hnone : (t.writtenTags.map fun tag => delimited (t.body tag)).sum = 0 := by omega
  intro tag htag l hl
  cases hfind : TagLine.find? l with
  | none => rfl
  | some found =>
    -- a delimiter would be counted in its section, which is written
    have hne : t.body tag ≠ [] := by
      intro hnil
      rw [hnil, List.splitOn_nil, List.mem_singleton] at hl
      rw [hl] at hfind
      cases hfind
    have hmem : tag ∈ t.writtenTags :=
      List.mem_filter.2 ⟨mem_sectionTags htag, by simp [hne]⟩
    have hzero : delimited (t.body tag) = 0 :=
      List.sum_eq_zero_iff_forall_eq_nat.1 hnone _ (List.mem_map_of_mem hmem)
    have hpos : 0 < delimited (t.body tag) :=
      List.countP_pos_iff.2 ⟨l, hl, TagLine.isDelimited_of_find? hfind⟩
    omega

/-- The texts of a trimmed turn that is read again are fields, if its requests hold no delimiter. -/
theorem isField_of_reread (htrim : ∀ s ∈ t.texts, s.trim = s)
    (hreviewed : t.signal ≠ .none → t.requests = [])
    (hrequests : TagLine.find? (requestsText t.requests) = none)
    (h : ofDelimited (Text.joinWith [lf] t.rows) = t) : ∀ s ∈ t.texts, IsField s := by
  intro s hs
  have hlined : IsLined s := ⟨htrim s hs, no_crlf_of_reread h s hs⟩
  refine ⟨hlined.trim_eq, hlined.no_crlf, fun l hl => ?_⟩
  have hpiece : l ∈ s.splitOn lf :=
    Text.mem_of_mem_linesOfPieces (fun p hp => hlined.getLast?_ne hp) hl
  obtain ⟨tag, htag, rfl⟩ := mem_texts hs
  exact no_delimiter_of_reread htrim hreviewed hrequests h tag htag l hpiece

end Kept

/-! ## Turns that are read -/

/-- What the reader sees to in every turn. -/
structure IsParsed (t : Turn) : Prop where
  thought_ne : t.thought ≠ some []
  plan_ne : t.plan ≠ some []
  goals_ne : t.goals ≠ some []
  trim_eq : ∀ s ∈ t.texts, s.trim = s
  /-- A completion signal stands alone. -/
  completed : t.signal = .fin ∨ t.signal = .noChangesNeeded → t = ofSignal t.signal
  /-- A review signal goes with advisory texts only. -/
  reviewed : t.signal = .verificationReport ∨ t.signal = .readyForFinalCheck →
    t.requests = [] ∧ t.patch = []
  nodup : (t.requests.map Request.path).Nodup
  /-- The plan of a turn without requests names no file. -/
  unplanned : t.signal = .none → t.requests = [] → ∀ plan ∈ t.plan, Request.ofPlan plan = []

theorem isParsed_ofSignal {s : Signal} (h : s = .fin ∨ s = .noChangesNeeded) :
    (ofSignal s).IsParsed := by
  rcases h with rfl | rfl
  all_goals
    exact ⟨by decide, by decide, by decide, by decide, by decide, by decide, by decide, by decide⟩

theorem eq_nil_of_distinct {rs : List Request} (h : Request.distinct rs = []) : rs = [] := by
  cases rs with
  | nil => rfl
  | cons r rs =>
    rw [Request.distinct, Request.distinctFrom, if_neg List.not_mem_nil] at h
    cases h

theorem isParsed_finish {t : Turn} (hthought : t.thought ≠ some []) (hplan : t.plan ≠ some [])
    (hgoals : t.goals ≠ some []) (htrim : ∀ s ∈ t.texts, s.trim = s) (hsignal : t.signal = .none) :
    (finish t).IsParsed where
  thought_ne := hthought
  plan_ne := hplan
  goals_ne := hgoals
  trim_eq := htrim
  completed h := by
    rw [show (finish t).signal = .none from hsignal] at h
    rcases h with h | h <;> cases h
  reviewed h := by
    rw [show (finish t).signal = .none from hsignal] at h
    rcases h with h | h <;> cases h
  nodup := Request.distinct_nodup _
  unplanned _ hnil plan hmem := by
    have hplan : t.plan = some plan := hmem
    have hnone := eq_nil_of_distinct hnil
    -- nothing was requested, so the plan has been asked
    cases hrequests : t.requests with
    | nil => simpa only [hrequests, hplan] using hnone
    | cons r rs =>
      simp only [hrequests] at hnone
      cases hnone

/-- The texts that the sections make are trimmed. -/
theorem trim_of_mem_texts_ofSections {entries : List (Tag × Text)} {s : Text}
    (h : s ∈ (ofSections entries).texts) : s.trim = s := by
  have hsection : ∀ tag, (sectionText entries tag).trim = sectionText entries tag :=
    fun tag => Text.trim_trim _
  have htexts : (ofSections entries).texts = textTags.map (sectionText entries) := by
    simp [texts, textTags, body, ofSections]
  rw [htexts] at h
  obtain ⟨tag, -, rfl⟩ := List.mem_map.1 h
  exact hsection tag

/-- A plan that is written with indentation stands between brackets. -/
theorem plan_of_planOfJson? {v : Json} {plan : Text} (h : planOfJson? v = some plan) :
    plan ≠ [] ∧ plan.trim = plan := by
  cases v with
  | array items =>
    cases items with
    | nil => cases h
    | cons v vs =>
      rw [planOfJson?] at h
      split at h
      · obtain rfl : (Json.array (v :: vs)).pretty = plan := Option.some.inj h
        rw [Json.pretty, Json.prettyAt]
        exact ⟨by simp, Text.trim_eq_self (by decide) (by decide) _⟩
      · cases h
  | _ => cases h

theorem isParsed_of_ofJson? {raw : Text} {t : Turn} (h : ofJson? raw = some t) :
    (finish t).IsParsed := by
  rw [ofJson?] at h
  split at h
  · cases h
  split at h
  · cases h
  split at h
  · cases h
  obtain ⟨v, -, rfl⟩ := Option.map_eq_some_iff.1 h
  refine isParsed_finish (by simp) (fun hplan => ?_) (by simp) (fun s hs => ?_) rfl
  · exact (plan_of_planOfJson? hplan).1 rfl
  · have hplan : s = [] ∨ s = (planOfJson? v).getD [] := by
      simpa [texts, textTags, body, or_comm] using hs
    rcases hplan with rfl | rfl
    · rfl
    · cases hplan : planOfJson? v with
      | none => rfl
      | some plan => exact (plan_of_planOfJson? hplan).2

/-- The scan gives no completion signal. -/
theorem scanLines_signal (current : Option Tag) (ls : List Text) :
    (scanLines current ls).2 ≠ .fin ∧ (scanLines current ls).2 ≠ .noChangesNeeded := by
  induction ls generalizing current with
  | nil => simp [scanLines]
  | cons line ls ih =>
    cases hfind : TagLine.find? line with
    | none =>
      rw [scanLines_plain hfind]
      exact ih current
    | some found =>
      obtain ⟨tag, after⟩ := found
      cases htag : tag.isTerminal with
      | true =>
        rw [scanLines_terminal hfind htag]
        dsimp only
        split <;> simp
      | false =>
        rw [scanLines_delimiter hfind htag]
        exact ih (some tag)

theorem isParsed_ofDelimited (raw : Text) : (ofDelimited raw).IsParsed := by
  have hsignal := scanLines_signal none (raw.lines.map Text.dropCr)
  rw [ofDelimited]
  -- a turn without a signal is finished, one with a review signal loses its requests and its patch
  split
  · refine isParsed_finish (nonEmpty?_ne _) (nonEmpty?_ne _) (nonEmpty?_ne _) ?_ rfl
    exact fun s hs => trim_of_mem_texts_ofSections hs
  · rename_i entries signal hne hscan
    rw [hscan] at hsignal
    refine ⟨nonEmpty?_ne _, nonEmpty?_ne _, nonEmpty?_ne _, ?_, ?_, ?_, List.nodup_nil, ?_⟩
    · intro s hs
      have hkept : s = [] ∨ s ∈ (ofSections entries).texts := by
        simp only [texts, textTags, body, List.map_cons, List.map_nil, List.mem_cons,
          List.not_mem_nil, or_false] at hs ⊢
        grind
      rcases hkept with rfl | hmem
      · exact Text.trim_nil
      · exact trim_of_mem_texts_ofSections hmem
    · exact fun h => h.elim (fun h => absurd h hsignal.1) fun h => absurd h hsignal.2
    · exact fun _ => ⟨rfl, rfl⟩
    · exact fun h => absurd h hne

/-- The turn of any reply. -/
theorem isParsed_parse (raw : Text) : (parse raw).IsParsed := by
  rw [parse]
  split
  · exact isParsed_ofSignal (.inl rfl)
  split
  · exact isParsed_ofSignal (.inr rfl)
  split
  · rename_i t ht
    exact isParsed_of_ofJson? ht
  · exact isParsed_ofDelimited raw

/-! ## Reading again -/

/-- The requests that are read from the canonical reply of a turn whose texts are fields. -/
def rereadRequests (t : Turn) : List Request :=
  match t.signal with
  | .none => (finish { t with requests := Request.resolve (requestsText t.requests) }).requests
  | _ => []

/-- Only the requests of a turn are finished. -/
theorem finish_eq (t : Turn) : finish t = { t with requests := (finish t).requests } := rfl

section Reread

variable {t : Turn}

/-- Requests whose paths hold no delimiter are written without one. -/
theorem find?_requestsText_of_paths (h : ∀ r ∈ t.requests, TagLine.find? r.path = none) :
    TagLine.find? (requestsText t.requests) = none := by
  by_cases hnil : t.requests = []
  · rw [hnil]
    rfl
  · rw [Request.requestsText_eq hnil]
    refine TagLine.find?_compact (Request.isReadable_listJson t.requests) ?_
    exact Request.forall_mem_texts_listJson (by decide) h

theorem IsParsed.isField_body (h : t.IsParsed) (hfields : ∀ s ∈ t.texts, IsField s)
    (hrequests : TagLine.find? (requestsText t.requests) = none) (tag : Tag) :
    IsField (t.body tag) := by
  have hnil : IsField [] := ⟨rfl, by simp, fun l hl => absurd hl List.not_mem_nil⟩
  have htext : ∀ tag ∈ textTags, IsField (t.body tag) :=
    fun tag htag => hfields _ (List.mem_map_of_mem htag)
  cases tag with
  | requests =>
    -- the requests are one line, of which the paths decide whether it holds a delimiter
    have hlined := isLined_body h.trim_eq (fun s hs => (hfields s hs).no_crlf) .requests
    refine ⟨hlined.trim_eq, hlined.no_crlf, fun l hl => ?_⟩
    have hpiece := Text.mem_of_mem_linesOfPieces (fun p hp => hlined.getLast?_ne hp) hl
    rw [body, List.splitOn_eq_singleton (Request.lf_notMem_requestsText t.requests),
      List.mem_singleton] at hpiece
    rw [hpiece]
    exact hrequests
  | ignored => exact hnil
  | verificationReport => exact hnil
  | finalCheck => exact hnil
  | _ => exact htext _ (by decide)

/-- The reply of a turn that is not complete is its rows. -/
theorem toTagText_eq (hfin : t.signal ≠ .fin) (hnoChanges : t.signal ≠ .noChangesNeeded) :
    t.toTagText = Text.joinWith [lf] t.rows := by
  rw [joinWith_rows, toTagText]
  split
  · rename_i hsignal
    exact absurd hsignal hfin
  · rename_i hsignal
    exact absurd hsignal hnoChanges
  · rfl

/-- The reply of a turn whose sections are fields is divided at its delimiters. -/
theorem parse_rows_of_isField (h : ∀ tag, IsField (t.body tag)) :
    parse (Text.joinWith [lf] t.rows) = ofDelimited (Text.joinWith [lf] t.rows) := by
  obtain ⟨hfin, hnoChanges⟩ := hasInfix_joinWith_rows h
  rw [parse, hfin, hnoChanges, ofJson?_eq_none (head?_joinWith_rows t),
    if_neg Bool.false_ne_true, if_neg Bool.false_ne_true]

/-- A turn without a completion signal is not read from a reply that holds a completion marker. -/
theorem parse_rows_eq (hfin : (parse (Text.joinWith [lf] t.rows)).signal ≠ .fin)
    (hnoChanges : (parse (Text.joinWith [lf] t.rows)).signal ≠ .noChangesNeeded) :
    parse (Text.joinWith [lf] t.rows) = ofDelimited (Text.joinWith [lf] t.rows) := by
  cases hmarker : Text.hasInfix Tag.finMarker (Text.joinWith [lf] t.rows) with
  | true =>
    rw [parse, hmarker] at hfin
    exact absurd rfl hfin
  | false =>
    cases hmarker' : Text.hasInfix Tag.noChangesMarker (Text.joinWith [lf] t.rows) with
    | true =>
      rw [parse, hmarker, hmarker'] at hnoChanges
      exact absurd rfl hnoChanges
    | false =>
      rw [parse, hmarker, hmarker', ofJson?_eq_none (head?_joinWith_rows t),
        if_neg Bool.false_ne_true, if_neg Bool.false_ne_true]

/-- A reply whose sections are fields gives the turn back but for its requests. -/
theorem ofDelimited_rows_of_isField (h : t.IsParsed) (hfields : ∀ tag, IsField (t.body tag))
    (hfin : t.signal ≠ .fin) (hnoChanges : t.signal ≠ .noChangesNeeded) :
    ofDelimited (Text.joinWith [lf] t.rows) = { t with requests := t.rereadRequests } := by
  have hsections := ofSections_entries_of_isField hfields h.thought_ne h.plan_ne h.goals_ne
  have hreviewed : t.signal = .verificationReport ∨ t.signal = .readyForFinalCheck →
      { ofSections (t.writtenTags.flatMap t.sectionEntries) with
        requests := [], patch := [], signal := t.signal } = { t with requests := [] } := by
    intro hsignal
    rw [hsections, ← (h.reviewed hsignal).2]
  rw [ofDelimited, lines_joinWith_rows fun tag => (hfields tag).isLined,
    scanLines_rows hfields hfin hnoChanges, rereadRequests]
  cases hsignal : t.signal with
  | none =>
    dsimp only
    rw [hsections, finish_eq, ← hsignal]
  | fin => exact absurd hsignal hfin
  | noChangesNeeded => exact absurd hsignal hnoChanges
  | verificationReport =>
    rw [hsignal] at hreviewed
    exact hreviewed (.inl rfl)
  | readyForFinalCheck =>
    rw [hsignal] at hreviewed
    exact hreviewed (.inr rfl)

/-- A turn that is complete is read again from its marker. -/
theorem reread_ofSignal {s : Signal} (h : s = .fin ∨ s = .noChangesNeeded) :
    parse (ofSignal s).toTagText = ofSignal s ∧ (∀ text ∈ (ofSignal s).texts, IsField text) ∧
      (ofSignal s).rereadRequests = (ofSignal s).requests := by
  rcases h with rfl | rfl
  · exact ⟨if_pos (by decide), by decide, rfl⟩
  · exact ⟨(if_neg (by decide)).trans (if_pos (by decide)), by decide, rfl⟩

/-- A turn of the reader is read again exactly when its texts are fields and its requests are. -/
theorem reread_iff (h : t.IsParsed) (hpaths : ∀ r ∈ t.requests, TagLine.find? r.path = none) :
    parse t.toTagText = t ↔ (∀ s ∈ t.texts, IsField s) ∧ t.rereadRequests = t.requests := by
  by_cases hcomplete : t.signal = .fin ∨ t.signal = .noChangesNeeded
  · rw [h.completed hcomplete]
    obtain ⟨hparse, htexts, hrequests⟩ := reread_ofSignal hcomplete
    exact ⟨fun _ => ⟨htexts, hrequests⟩, fun _ => hparse⟩
  -- the other turns are written as rows, which are read at their delimiters
  obtain ⟨hfin, hnoChanges⟩ := not_or.1 hcomplete
  have hrequests := find?_requestsText_of_paths hpaths
  rw [toTagText_eq hfin hnoChanges]
  constructor
  · intro hparse
    have hdelimited : ofDelimited (Text.joinWith [lf] t.rows) = t := by
      rw [← parse_rows_eq (by rwa [hparse]) (by rwa [hparse])]
      exact hparse
    have hreviewed : t.signal ≠ .none → t.requests = [] := by
      intro hsignal
      refine (h.reviewed ?_).1
      revert hfin hnoChanges hsignal
      cases t.signal <;> decide
    have hfields := isField_of_reread h.trim_eq hreviewed hrequests hdelimited
    rw [ofDelimited_rows_of_isField h (h.isField_body hfields hrequests) hfin hnoChanges]
      at hdelimited
    exact ⟨hfields, congrArg Turn.requests hdelimited⟩
  · rintro ⟨hfields, hreread⟩
    have hbody := h.isField_body hfields hrequests
    rw [parse_rows_of_isField hbody, ofDelimited_rows_of_isField h hbody hfin hnoChanges, hreread]

/-- Requests with plain paths are read again. -/
theorem IsParsed.rereadRequests_eq (h : t.IsParsed)
    (hplain : ∀ r ∈ t.requests, Request.IsPlainPath r.path) : t.rereadRequests = t.requests := by
  rw [rereadRequests]
  cases hsignal : t.signal with
  | none =>
    dsimp only
    rw [Request.resolve_requestsText hplain]
    have hfinish := congrArg Turn.requests (finish_eq_self h.nodup (h.unplanned hsignal))
    exact hfinish
  | fin => exact (congrArg Turn.requests (h.completed (.inl hsignal))).symm
  | noChangesNeeded => exact (congrArg Turn.requests (h.completed (.inr hsignal))).symm
  | verificationReport => exact (h.reviewed (.inl hsignal)).1.symm
  | readyForFinalCheck => exact (h.reviewed (.inr hsignal)).1.symm

end Reread

/-- The canonical reply of the turn of a reply, of which no path holds a delimiter, reads as that
turn exactly when its texts are fields, without delimiters and without a carriage return before a
line feed, and what is written for its requests is read as them. -/
theorem parse_toTagText_parse_iff {raw : Text}
    (h : ∀ r ∈ (parse raw).requests, TagLine.find? r.path = none) :
    parse (parse raw).toTagText = parse raw ↔
      (∀ s ∈ (parse raw).texts, IsField s) ∧ (parse raw).rereadRequests = (parse raw).requests :=
  reread_iff (isParsed_parse raw) h

/-- A path with a typographic quote is read again, although it is not plain. -/
theorem parse_toTagText_parse_sample :
    parse (parse "[\x7b\"path\": \"a\u201Cb.go\"\x7d]".toList).toTagText
      = parse "[\x7b\"path\": \"a\u201Cb.go\"\x7d]".toList :=
  (parse_toTagText_parse_iff (by decide +kernel)).2 ⟨by decide +kernel, by decide +kernel⟩

/-- Replies whose turn is not read again: with two delimiters on a line, with carriage returns
before a line feed, with a typographic quote in a path, and with a delimiter in a path. -/
theorem parse_toTagText_parse_ne :
    parse (parse "%_Thought_% abc %_Plan_% xyz".toList).toTagText
        ≠ parse "%_Thought_% abc %_Plan_% xyz".toList ∧
      parse (parse "%_Thought_%\na\r\r\r\nb".toList).toTagText
        ≠ parse "%_Thought_%\na\r\r\r\nb".toList ∧
      parse (parse "[\x7b\"path\": \"a\u2019b.go\"\x7d]".toList).toTagText
        ≠ parse "[\x7b\"path\": \"a\u2019b.go\"\x7d]".toList ∧
      parse (parse "%_Reply Required_%\n[\x7b\"path\": \"x\\u0025_Plan_% y\"\x7d]".toList).toTagText
        ≠ parse "%_Reply Required_%\n[\x7b\"path\": \"x\\u0025_Plan_% y\"\x7d]".toList := by
  decide +kernel

end Turn

end Mend
