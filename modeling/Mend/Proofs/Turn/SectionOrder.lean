import Mend.Proofs.Turn.Rereading
import Mend.Proofs.Turn.Sections

/-!
# The order of sections

A reply that is made of blocks, each a line that starts with a delimiter and lines without one
(`Turn.Block`), is read the same in every order of the blocks that keeps those of one tag in theirs
(`Turn.parse_reorders`). The scan gives the lines of each block with the tag of the block
(`Turn.Block.scanLines_rows`), and a section is made of the lines of its tag alone.

The last line of a reply is no line if it is empty, and it keeps a carriage return that another line
loses. Both show at the end of a section only, where blanks are trimmed (`Turn.SameScan`). So a reply
is read as with a line feed behind it (`Turn.ofDelimited_append_lf`), and then as its blocks are, each
by itself.
-/

namespace Mend

open Text (lf)

namespace Turn

/-! ## Ends of sections -/

theorem sectionText_eq_trim (entries : List (Tag × Text)) (tag : Tag) :
    sectionText entries tag = (Text.unlines (part entries tag)).trim := by
  change (Text.joinWith [lf] (part entries tag)).trim = _
  by_cases hpart : part entries tag = []
  · rw [hpart]
    rfl
  · have hlf : ∀ c ∈ [lf], Text.isBlank c = true := List.forall_mem_singleton.2 (by decide)
    rw [Text.unlines_eq_joinWith hpart, Text.trim_append_blanks hlf]

/-- Only the texts of the sections make the turn. -/
theorem ofSections_congr {entries entries' : List (Tag × Text)}
    (h : ∀ tag, sectionText entries tag = sectionText entries' tag) :
    ofSections entries = ofSections entries' := by
  simp only [ofSections, h]

theorem part_cons (e : Tag × Text) (entries : List (Tag × Text)) (tag : Tag) :
    part (e :: entries) tag = (if e.1 = tag then [e.2] else []) ++ part entries tag := by
  by_cases he : e.1 = tag
  · simp [part, entryTexts, he]
  · simp [part, entryTexts, he]

/-- What is scanned has the same signal, and lines that differ in blanks at the ends of sections
only. -/
structure SameScan (scan scan' : List (Tag × Text) × Signal) : Prop where
  part_eq : ∀ tag, Text.trimEnd (Text.unlines (part scan.1 tag))
    = Text.trimEnd (Text.unlines (part scan'.1 tag))
  signal_eq : scan.2 = scan'.2

theorem SameScan.refl (scan : List (Tag × Text) × Signal) : SameScan scan scan :=
  ⟨fun _ => rfl, rfl⟩

theorem SameScan.ofSections_eq {scan scan' : List (Tag × Text) × Signal} (h : SameScan scan scan') :
    ofSections scan.1 = ofSections scan'.1 := by
  refine ofSections_congr fun tag => ?_
  rw [sectionText_eq_trim, sectionText_eq_trim, ← Text.trim_trimEnd, h.part_eq, Text.trim_trimEnd]

/-- The same lines may stand in front. -/
theorem SameScan.append {entries entries' : List (Tag × Text)} {signal signal' : Signal}
    (h : SameScan (entries, signal) (entries', signal')) (front : List (Tag × Text)) :
    SameScan (front ++ entries, signal) (front ++ entries', signal') := by
  induction front with
  | nil => exact h
  | cons e front ih =>
    refine ⟨fun tag => ?_, ih.signal_eq⟩
    have hrest := ih.part_eq tag
    simp only [List.cons_append, part_cons, Text.unlines_append] at hrest ⊢
    rw [← Text.trimEnd_append_trimEnd, hrest, Text.trimEnd_append_trimEnd]

/-- A carriage return at the end of the last line does not matter. -/
theorem sameScan_dropCr (current : Option Tag) (l : Text) :
    SameScan (scanLines current [Text.dropCr l]) (scanLines current [l]) := by
  cases hfind : TagLine.find? l with
  | some found =>
    obtain ⟨tag, after⟩ := found
    have hfind' : TagLine.find? (Text.dropCr l) = some ⟨tag, after⟩ :=
      (TagLine.find?_dropCr l).trans hfind
    -- what stands behind the delimiter on its line is trimmed
    cases htag : tag.isTerminal with
    | true =>
      rw [scanLines_terminal hfind htag, scanLines_terminal hfind' htag]
      exact .refl _
    | false =>
      rw [scanLines_delimiter hfind htag, scanLines_delimiter hfind' htag]
      exact .refl _
  | none =>
    have hfind' : TagLine.find? (Text.dropCr l) = none := (TagLine.find?_dropCr l).trans hfind
    rw [scanLines_plain hfind, scanLines_plain hfind']
    refine ⟨fun tag => ?_, rfl⟩
    -- the line is the last one of its section, and of no other section
    cases current with
    | none => rfl
    | some other =>
      by_cases hother : other = tag
      · have hlf : ∀ c ∈ [lf], Text.isBlank c = true := List.forall_mem_singleton.2 (by decide)
        have hkept := Text.trimEnd_append_dropCr [] l
        simp only [List.nil_append] at hkept
        simpa [scanLines, part, entryTexts, hother, Text.unlines, Text.trimEnd_append_blanks hlf]
          using hkept
      · simp [scanLines, part, entryTexts, hother]

/-- An empty line at the end does not matter. -/
theorem sameScan_nil (current : Option Tag) :
    SameScan (scanLines current [[]]) (scanLines current []) := by
  have hfind : TagLine.find? [] = none := rfl
  rw [scanLines_plain hfind]
  refine ⟨fun tag => ?_, rfl⟩
  cases current with
  | none => rfl
  | some other =>
    by_cases hother : other = tag
    · have hlf : Text.trimEnd [lf] = Text.trimEnd [] := rfl
      simpa [scanLines, part, entryTexts, hother] using hlf
    · simp [scanLines, part, entryTexts, hother]

/-- Ends of replies that are scanned alike are scanned alike behind the same lines. -/
theorem sameScan_append {ends ends' : List Text}
    (h : ∀ current, SameScan (scanLines current ends) (scanLines current ends')) (ls : List Text)
    (current : Option Tag) :
    SameScan (scanLines current (ls ++ ends)) (scanLines current (ls ++ ends')) := by
  induction ls generalizing current with
  | nil => exact h current
  | cons l ls ih =>
    rw [List.cons_append, List.cons_append]
    cases hfind : TagLine.find? l with
    | none =>
      rw [scanLines_plain hfind, scanLines_plain hfind]
      exact (ih current).append _
    | some found =>
      obtain ⟨tag, after⟩ := found
      cases htag : tag.isTerminal with
      | true =>
        -- neither end is read
        rw [scanLines_terminal hfind htag, scanLines_terminal hfind htag]
        exact .refl _
      | false =>
        rw [scanLines_delimiter hfind htag, scanLines_delimiter hfind htag]
        exact (ih (some tag)).append _

/-- Replies that are scanned alike are read alike. -/
theorem SameScan.ofDelimited_eq {raw raw' : Text}
    (h : SameScan (scanLines none (raw.lines.map Text.dropCr))
      (scanLines none (raw'.lines.map Text.dropCr))) : ofDelimited raw = ofDelimited raw' := by
  rw [ofDelimited, ofDelimited]
  generalize scanLines none (raw.lines.map Text.dropCr) = scan at h ⊢
  generalize scanLines none (raw'.lines.map Text.dropCr) = scan' at h ⊢
  obtain ⟨entries, signal⟩ := scan
  obtain ⟨entries', signal'⟩ := scan'
  obtain rfl : signal = signal' := h.signal_eq
  have hsections : ofSections entries = ofSections entries' := h.ofSections_eq
  cases signal <;> simp only [hsections]

/-- A reply is read as with a line feed behind it. -/
theorem ofDelimited_append_lf (raw : Text) : ofDelimited (raw ++ [lf]) = ofDelimited raw := by
  apply SameScan.ofDelimited_eq
  rcases List.eq_nil_or_concat (raw.splitOn lf) with hnil | ⟨front, last, hsplit⟩
  · exact absurd hnil (List.splitOn_ne_nil lf raw)
  · rw [List.concat_eq_append] at hsplit
    -- only the last piece is read in another way: as a line, or as none if it is empty
    have hended : (raw ++ [lf]).lines.map Text.dropCr
        = (front.map Text.dropCr).map Text.dropCr ++ [Text.dropCr (Text.dropCr last)] := by
      rw [Text.lines_append_lf, hsplit]
      simp [Text.lines, Text.linesOfPieces]
    rw [hended, Text.lines, hsplit, Text.linesOfPieces_concat, List.map_append]
    refine sameScan_append (fun current => ?_) _ none
    split
    · rename_i hempty
      rw [List.isEmpty_iff.1 hempty]
      exact sameScan_nil current
    · exact sameScan_dropCr current (Text.dropCr last)

/-! ## Blocks -/

/-- A block of a reply: a line that starts with a delimiter, and lines without one. The delimiter
does not end the reply, and no completion marker stands in the block. -/
structure Block where
  /-- The line of the delimiter. -/
  head : Text
  /-- The lines below. -/
  body : List Text
  /-- The name in the delimiter. -/
  name : Text
  /-- What follows the delimiter on its line. -/
  after : Text
  nameAtStart?_head : TagLine.nameAtStart? head = some (name, after)
  isTerminal_name : (Tag.ofName name).isTerminal = false
  find?_body : ∀ l ∈ body, TagLine.find? l = none
  lf_notMem : ∀ l ∈ head :: body, lf ∉ l
  fin : Text.hasInfix Tag.finMarker (Text.joinWith [lf] (head :: body)) = false
  noChanges : Text.hasInfix Tag.noChangesMarker (Text.joinWith [lf] (head :: body)) = false

namespace Block

/-- The tag that the name in the delimiter belongs to. -/
def tag (b : Block) : Tag := Tag.ofName b.name

/-- The lines of a block. -/
def rows (b : Block) : List Text := b.head :: b.body

/-- The text of a block. -/
def text (b : Block) : Text := Text.joinWith [lf] b.rows

/-- What a block adds to the section of its tag. -/
def entries (b : Block) : List (Tag × Text) :=
  (if b.after.trim.isEmpty then [] else [(b.tag, b.after.trim)]) ++
    b.body.map fun l => (b.tag, Text.dropCr (Text.dropCr l))

theorem find?_head (b : Block) : TagLine.find? b.head = some ⟨b.tag, b.after.trim⟩ := by
  rw [TagLine.find?, TagLine.firstName?_of_nameAtStart? b.nameAtStart?_head]
  rfl

/-- The scan gives what a block adds, and goes on in the section of its tag. -/
theorem scanLines_rows (b : Block) (current : Option Tag) (rest : List Text) :
    scanLines current ((b.rows.map Text.dropCr).map Text.dropCr ++ rest)
      = (b.entries ++ (scanLines (some b.tag) rest).1, (scanLines (some b.tag) rest).2) := by
  have hhead : TagLine.find? (Text.dropCr (Text.dropCr b.head)) = some ⟨b.tag, b.after.trim⟩ := by
    rw [TagLine.find?_dropCr, TagLine.find?_dropCr, b.find?_head]
  have hbody : ∀ l ∈ (b.body.map Text.dropCr).map Text.dropCr, TagLine.find? l = none := by
    simpa using b.find?_body
  rw [rows, List.map_cons, List.map_cons, List.cons_append,
    scanLines_delimiter hhead b.isTerminal_name, scanLines_append hbody]
  simp [entries]

/-- All lines of a block belong to its tag. -/
theorem filter_entries (b : Block) (tag : Tag) :
    b.entries.filter (fun e => e.1 = tag) = if b.tag = tag then b.entries else [] := by
  have htag : ∀ e ∈ b.entries, e.1 = b.tag := by
    intro e he
    rcases List.mem_append.1 he with he | he
    · split at he
      · cases he
      · rw [List.mem_singleton.1 he]
    · obtain ⟨l, -, rfl⟩ := List.mem_map.1 he
      rfl
  split
  · rename_i heq
    exact List.filter_eq_self.2 fun e he => by simp [htag e he, heq]
  · rename_i hne
    exact List.filter_eq_nil_iff.2 fun e he => by simp [htag e he, hne]

end Block

/-- The reply that is made of blocks. -/
def blockReply (bs : List Block) : Text := Text.joinWith [lf] (bs.map Block.text)

/-- The second list has the blocks of the first one, those of each tag in the same order. -/
structure Reorders (bs bs' : List Block) : Prop where
  perm : bs.Perm bs'
  filter_eq : ∀ tag, bs.filter (fun b => b.tag = tag) = bs'.filter fun b => b.tag = tag

variable {bs bs' : List Block}

/-- A section is made of what the blocks of its tag add. -/
theorem sectionText_flatMap_entries (bs : List Block) (tag : Tag) :
    sectionText (bs.flatMap Block.entries) tag
      = sectionText ((bs.filter fun b => b.tag = tag).flatMap Block.entries) tag := by
  have hfilter : ∀ bs : List Block, (bs.flatMap Block.entries).filter (fun e => e.1 = tag)
      = (bs.filter fun b => b.tag = tag).flatMap Block.entries := by
    intro bs
    induction bs with
    | nil => rfl
    | cons b bs ih =>
      rw [List.flatMap_cons, List.filter_append, b.filter_entries, ih]
      by_cases htag : b.tag = tag
      · simp [htag]
      · simp [htag]
  have htwice := hfilter (bs.filter fun b => b.tag = tag)
  rw [List.filter_filter] at htwice
  rw [sectionText, sectionText, hfilter, htwice]
  simp

/-- The scan gives what the blocks add, one after the other. -/
theorem scanLines_flatMap_rows (bs : List Block) (current : Option Tag) :
    scanLines current (((bs.flatMap Block.rows).map Text.dropCr).map Text.dropCr)
      = (bs.flatMap Block.entries, .none) := by
  induction bs generalizing current with
  | nil => rfl
  | cons b bs ih =>
    rw [List.flatMap_cons, List.map_append, List.map_append, b.scanLines_rows, ih]
    rfl

/-- With a line feed behind it a reply of blocks is their lines. -/
theorem blockReply_append_lf (hne : bs ≠ []) :
    blockReply bs ++ [lf] = Text.unlines (bs.flatMap Block.rows) := by
  have hjoin := Text.joinWith_flatMap_append (f := Block.rows) (fun b => List.cons_ne_nil _ _) bs []
  rw [List.append_nil, List.append_nil] at hjoin
  have hrows : bs.flatMap Block.rows ≠ [] := by
    obtain ⟨b, bs, rfl⟩ := List.exists_cons_of_ne_nil hne
    simp [Block.rows]
  rw [Text.unlines_eq_joinWith hrows, hjoin]
  rfl

/-- A reply of blocks is read as what they add. -/
theorem ofDelimited_blockReply (hne : bs ≠ []) :
    ofDelimited (blockReply bs) = finish (ofSections (bs.flatMap Block.entries)) := by
  have hlf : ∀ l ∈ bs.flatMap Block.rows, lf ∉ l := by
    intro l hl
    obtain ⟨b, -, hl⟩ := List.mem_flatMap.1 hl
    exact b.lf_notMem l hl
  rw [← ofDelimited_append_lf, blockReply_append_lf hne, ofDelimited, Text.lines_unlines hlf,
    scanLines_flatMap_rows]

/-- A reply of blocks starts with the delimiter of its first block. -/
theorem exists_blockReply_cons (b : Block) (bs : List Block) :
    ∃ t, blockReply (b :: bs) = '%' :: t := by
  obtain ⟨t, ht⟩ := TagLine.exists_cons_of_nameAtStart? b.nameAtStart?_head
  obtain ⟨below, hbelow⟩ := Text.exists_joinWith_cons [lf] b.head b.body
  obtain ⟨more, hmore⟩ := Text.exists_joinWith_cons [lf] b.text (bs.map Block.text)
  refine ⟨t ++ below ++ more, ?_⟩
  calc blockReply (b :: bs) = b.text ++ more := hmore
    _ = b.head ++ below ++ more := by rw [← hbelow, Block.text, Block.rows]
    _ = '%' :: (t ++ below ++ more) := by simp [ht]

/-- A reply of blocks is read by its sections: it completes nothing and is no JSON value. -/
theorem parse_blockReply (bs : List Block) : parse (blockReply bs) = ofDelimited (blockReply bs) := by
  have hfin : Text.hasInfix Tag.finMarker (blockReply bs) = false :=
    Text.hasInfix_joinWith_eq_false (by decide) (by decide)
      (List.forall_mem_map.2 fun b _ => b.fin)
  have hnoChanges : Text.hasInfix Tag.noChangesMarker (blockReply bs) = false :=
    Text.hasInfix_joinWith_eq_false (by decide) (by decide)
      (List.forall_mem_map.2 fun b _ => b.noChanges)
  have hjson : ofJson? (blockReply bs) = none := by
    refine ofJson?_eq_none fun c hc => ?_
    cases bs with
    | nil => cases hc
    | cons b bs =>
      obtain ⟨t, ht⟩ := exists_blockReply_cons b bs
      rw [ht] at hc
      exact (Option.some.inj hc).symm
  rw [parse, hfin, hnoChanges, hjson]
  rfl

/-- The order of blocks with different tags does not matter. -/
theorem parse_reorders (h : Reorders bs bs') : parse (blockReply bs) = parse (blockReply bs') := by
  by_cases hne : bs = []
  · rw [hne] at h
    rw [hne, List.nil_perm.1 h.perm]
  · have hne' : bs' ≠ [] := fun hnil => hne (List.perm_nil.1 (hnil ▸ h.perm))
    have hsections : ofSections (bs.flatMap Block.entries) = ofSections (bs'.flatMap Block.entries) :=
      ofSections_congr fun tag => by
        rw [sectionText_flatMap_entries, h.filter_eq, ← sectionText_flatMap_entries]
    rw [parse_blockReply, parse_blockReply, ofDelimited_blockReply hne, ofDelimited_blockReply hne',
      hsections]

/-- A remark with carriage returns at the ends of its lines, and an empty last line. -/
def firstRemark : Block where
  head := "%_Comment_% one\r".toList
  body := [[], "two\r\r".toList, []]
  name := "Comment".toList
  after := " one\r".toList
  nameAtStart?_head := rfl
  isTerminal_name := rfl
  find?_body := by decide
  lf_notMem := by decide
  fin := by decide
  noChanges := by decide

/-- Another remark, under an alias. -/
def secondRemark : Block where
  head := "%_comments_%".toList
  body := ["three\r".toList]
  name := "comments".toList
  after := []
  nameAtStart?_head := rfl
  isTerminal_name := rfl
  find?_body := by decide
  lf_notMem := by decide
  fin := by decide
  noChanges := by decide

/-- Notes, which are dropped. -/
def droppedNotes : Block where
  head := "%_Verification_% x".toList
  body := [[]]
  name := "Verification".toList
  after := " x".toList
  nameAtStart?_head := rfl
  isTerminal_name := rfl
  find?_body := by decide
  lf_notMem := by decide
  fin := by decide
  noChanges := by decide

theorem parse_reorders_sample :
    Reorders [firstRemark, droppedNotes, secondRemark] [firstRemark, secondRemark, droppedNotes] ∧
      parse (blockReply [firstRemark, droppedNotes, secondRemark])
        = parse (blockReply [firstRemark, secondRemark, droppedNotes]) := by
  have hsecond : secondRemark.tag = .comment := by decide
  have hnotes : droppedNotes.tag = .ignored := by decide
  have hreorders : Reorders [firstRemark, droppedNotes, secondRemark]
      [firstRemark, secondRemark, droppedNotes] := by
    refine ⟨(List.Perm.swap _ _ _).cons _, fun tag => ?_⟩
    cases tag <;> simp [List.filter_cons, hsecond, hnotes]
  exact ⟨hreorders, parse_reorders hreorders⟩

end Turn

end Mend
