import Mend.Proofs.Revision.Basic

/-!
# The tokens of a revision

The patch of well-formed revisions is read as it is meant: `Revision.tokenize_patch` says which
tokens its rows give. The reader classifies a row by the row after it, so the statements on single
rows carry what stands below them.
-/

namespace Mend

namespace Patch

/-! ## Reading row by row -/

/-- Tokens of the given kinds on rows with the numbers from `n` on. -/
def numbered (n : Nat) : List TokenKind → List Token
  | [] => []
  | kind :: kinds => ⟨n, kind⟩ :: numbered (n + 1) kinds

theorem numbered_append (n : Nat) (ks ms : List TokenKind) :
    numbered n (ks ++ ms) = numbered n ks ++ numbered (n + ks.length) ms := by
  induction ks generalizing n with
  | nil => simp [numbered]
  | cons k ks ih =>
    have hshift : n + 1 + ks.length = n + (ks.length + 1) := by omega
    simp [numbered, ih, hshift]

/-- One row and then the others. -/
theorem tokenizeFrom_cons {s : LineState} {n : Nat} {row : Text} {rest : List Text}
    {kind : TokenKind} (h : classify s n row rest.head? = .ok kind) :
    tokenizeFrom s n (row :: rest)
      = (tokenizeFrom (s.after kind) (n + 1) rest).map (⟨n, kind⟩ :: ·) := by
  rw [tokenizeFrom, h]
  cases hrest : tokenizeFrom (s.after kind) (n + 1) rest <;> simp [Except.map, hrest]

/-! ## Numbers and ranges -/

/-- A character of a range. -/
def isRangeChar (c : Char) : Bool := c.isDigit || c == '+' || c == ','

theorem isBlank_of_isRangeChar {c : Char} (h : isRangeChar c = true) : Text.isBlank c = false := by
  simp only [isRangeChar, Bool.or_eq_true, beq_iff_eq] at h
  rcases h with (h | rfl) | rfl
  · exact Text.isBlank_of_isDigit h
  · decide
  · decide

/-- What reads as a number is not empty and has digits and a sign only. -/
theorem isRangeChar_of_number? {t : Text} {n : Nat} (h : number? t = some n) :
    t ≠ [] ∧ ∀ c ∈ t, isRangeChar c = true := by
  have hdigits : (Text.dropPrefix ['+'] t) ≠ [] ∧ ∀ c ∈ Text.dropPrefix ['+'] t, c.isDigit := by
    unfold number? at h
    split at h
    · rename_i m hm
      unfold Text.toNat? at hm
      split at hm
      · rename_i hall
        simpa using hall
      · cases hm
    · cases h
  obtain ⟨hne, hall⟩ := hdigits
  cases hp : Text.dropPrefix? ['+'] t with
  | none =>
    rw [Text.dropPrefix, hp] at hne hall
    exact ⟨hne, fun c hc => by simp [isRangeChar, hall c hc]⟩
  | some rest =>
    rw [Text.dropPrefix, hp] at hall
    rw [Text.eq_append_of_dropPrefix? hp]
    refine ⟨by simp, fun c hc => ?_⟩
    rcases List.mem_append.1 hc with hc | hc
    · obtain rfl : c = '+' := by simpa using hc
      decide
    · simp [isRangeChar, hall c hc]

/-- What reads as a range is not empty and has digits, signs and commas only. -/
theorem isRangeChar_of_range? {t : Text} (h : range? t ≠ none) :
    t ≠ [] ∧ ∀ c ∈ t, isRangeChar c = true := by
  unfold range? at h
  split at h
  · rename_i start length hcut
    cases hstart : number? start with
    | none => simp [hstart] at h
    | some m =>
      cases hlength : number? length with
      | none => simp [hstart, hlength] at h
      | some n =>
        rw [Text.eq_of_cutFirst? hcut]
        refine ⟨by simp, fun c hc => ?_⟩
        rcases List.mem_append.1 hc with hc | hc
        · exact (isRangeChar_of_number? hstart).2 c hc
        · rcases List.mem_cons.1 hc with rfl | hc
          · decide
          · exact (isRangeChar_of_number? hlength).2 c hc
  · cases hn : number? t with
    | none => simp [hn] at h
    | some n => exact isRangeChar_of_number? hn

/-- What reads as a range holds no blanks. -/
theorem visible_of_isRangeChar {t : Text} (h : ∀ c ∈ t, isRangeChar c = true) :
    ∀ c ∈ t, (!Text.isBlank c) = true := by
  intro c hc
  rw [isBlank_of_isRangeChar (h c hc)]
  rfl

/-- A range is taken up to the next space. -/
theorem takeWhile_visible {t : Text} (h : ∀ c ∈ t, isRangeChar c = true) (rest : Text) :
    (t ++ ' ' :: rest).takeWhile (fun c => !Text.isBlank c) = t := by
  have hspace : Text.isBlank ' ' = true := by decide
  rw [List.takeWhile_append_of_pos (visible_of_isRangeChar h)]
  simp [hspace]

theorem dropWhile_visible {t : Text} (h : ∀ c ∈ t, isRangeChar c = true) (rest : Text) :
    (t ++ ' ' :: rest).dropWhile (fun c => !Text.isBlank c) = ' ' :: rest := by
  have hspace : Text.isBlank ' ' = true := by decide
  rw [List.dropWhile_append_of_pos (visible_of_isRangeChar h)]
  simp [hspace]

/-- A hunk header holds its two ranges. -/
theorem headerRanges?_header {o n : Text} (ho : range? o ≠ none) (hn : range? n ≠ none) :
    headerRanges? (hunkMark ++ [' ', '-'] ++ o ++ [' ', '+'] ++ n ++ ' ' :: hunkMark) = some (o, n) := by
  obtain ⟨hone, ho⟩ := isRangeChar_of_range? ho
  obtain ⟨hnne, hn⟩ := isRangeChar_of_range? hn
  have hline : hunkMark ++ [' ', '-'] ++ o ++ [' ', '+'] ++ n ++ ' ' :: hunkMark
      = hunkMark ++ ' ' :: '-' :: (o ++ ' ' :: '+' :: (n ++ ' ' :: hunkMark)) := by simp
  have hspace : Text.isBlank ' ' = true := by decide
  have htrim : ∀ (c : Char) (rest : Text), Text.isBlank c = false →
      Text.trimStart (' ' :: c :: rest) = c :: rest := by
    intro c rest hc
    rw [Text.trimStart, List.dropWhile_cons_of_pos hspace, List.dropWhile_cons_of_neg (by simp [hc])]
  have hold : ∀ rest, Text.dropPrefix? ['-'] (Text.trimStart (' ' :: '-' :: rest)) = some rest := by
    intro rest
    rw [htrim '-' rest (by decide)]
    exact Text.dropPrefix?_append ['-'] rest
  have hnew : ∀ rest, Text.dropPrefix? ['+'] (Text.trimStart (' ' :: '+' :: rest)) = some rest := by
    intro rest
    rw [htrim '+' rest (by decide)]
    exact Text.dropPrefix?_append ['+'] rest
  have hmark : hunkMark.isPrefixOf (Text.trimStart (' ' :: hunkMark)) = true := by decide
  rw [hline, headerRanges?]
  simp only [Text.dropPrefix?_append, Option.bind_eq_bind, Option.bind_some, hold, hnew,
    takeWhile_visible ho, dropWhile_visible ho, takeWhile_visible hn, dropWhile_visible hn, hmark,
    List.head?_cons, Option.any_some, hspace]
  simp [hone, hnne]

/-! ## Header rows -/

theorem oldMark_eq : oldMark = ['-', '-', '-', ' '] := rfl

theorem newMark_eq : newMark = ['+', '+', '+', ' '] := rfl

theorem nullDevice_eq : nullDevice = ['/', 'd', 'e', 'v', '/', 'n', 'u', 'l', 'l'] := rfl

theorem headerPath_nullDevice : headerPath nullDevice = none := by
  rw [headerPath, nullDevice_eq]
  decide

/-- A path after one character that is no blank is trimmed already. -/
theorem trim_cons_cons {a b : Char} (ha : Text.isBlank a = false) (hb : Text.isBlank b = false)
    {path : Text} (htrim : path.trim = path) : Text.trim (a :: b :: path) = a :: b :: path := by
  have hend : path.trimEnd = path := by
    conv_lhs => rw [← htrim]
    rw [Text.trim, Text.trimEnd_trimEnd, ← Text.trim, htrim]
  rw [Text.trim, Text.trimStart, List.dropWhile_cons_of_neg (by simp [ha]),
    Text.trimEnd_cons ha, Text.trimEnd_cons hb, hend]

/-- The path of a side, with the letter of the side in front. -/
theorem headerPath_side {side : Char} (hside : side = 'a' ∨ side = 'b') {path : Text}
    (h : Revision.IsPlainPath path) : headerPath (side :: '/' :: path) = some path := by
  have htab : ∀ c ∈ side :: '/' :: path, (c != '\t') = true := by
    intro c hc
    rcases List.mem_cons.1 hc with rfl | hc
    · rcases hside with rfl | rfl <;> decide
    · rcases List.mem_cons.1 hc with rfl | hc
      · decide
      · have : c ≠ '\t' := fun heq => h.tab_notMem (heq ▸ hc)
        simpa using this
  -- with the letter of the side gone, the path itself must not lose a prefix
  have hdot : Text.dropPrefix ['.', '/'] path = path := by
    rw [Text.dropPrefix, Text.dropPrefix?_eq_none h.not_dot_prefix, Option.getD_none]
  have hblank : Text.isBlank side = false := by rcases hside with rfl | rfl <;> decide
  have htake : (side :: '/' :: path).takeWhile (· != '\t') = side :: '/' :: path := by
    have := @List.takeWhile_append_of_pos _ (· != '\t') (side :: '/' :: path) [] htab
    simpa using this
  have hslash : Text.isBlank '/' = false := by decide
  rw [headerPath, htake, trim_cons_cons hblank hslash h.trim_eq]
  have hnull : side :: '/' :: path ≠ nullDevice := by
    rw [nullDevice_eq]
    rcases hside with rfl | rfl <;> simp
  rw [if_neg hnull]
  rcases hside with rfl | rfl <;> simp [Text.dropPrefix?, hdot]

end Patch

namespace Revision

open Patch

/-- The path that the row of the old side names. -/
def oldPath (r : Revision) : Option Text := if r.creates then none else some r.path

theorem headerPath_oldName {r : Revision} (h : IsPlainPath r.path) :
    headerPath r.oldName = r.oldPath := by
  cases hc : r.creates with
  | true => simpa [oldName, oldPath, hc] using headerPath_nullDevice
  | false => simpa [oldName, oldPath, hc] using headerPath_side (Or.inl rfl) h

/-! ## What the rows are -/

/-- The numbers of a hunk header. -/
def Hunk.numbers (h : Hunk) : HunkHeader :=
  let old := (range? h.oldRange).getD (0, 0)
  let new := (range? h.newRange).getD (0, 0)
  ⟨old.1, old.2, new.1, new.2⟩

/-- What the row of an edit is. -/
def Edit.kind : Edit → TokenKind
  | keep l => .context l.text
  | remove l => .remove l.text
  | add l => .add l.text

/-- What the rows of an edit are. -/
def Edit.kinds (e : Edit) : List TokenKind := e.kind :: if e.line.ended then [] else [.noNewline]

/-- What the rows of a hunk are. -/
def Hunk.kinds (h : Hunk) : List TokenKind := .hunk h.numbers :: h.edits.flatMap Edit.kinds

/-- What the rows of a revision are. -/
def kinds (r : Revision) : List TokenKind :=
  .oldHeader r.oldPath :: .newHeader (some r.path) :: r.hunks.flatMap Hunk.kinds

/-- A hunk header reads as its two ranges. -/
theorem Hunk.hunkHeader?_header {h : Hunk} (ho : range? h.oldRange ≠ none)
    (hn : range? h.newRange ≠ none) : hunkHeader? h.header = some h.numbers := by
  obtain ⟨o, hoe⟩ := Option.ne_none_iff_exists'.1 ho
  obtain ⟨n, hne⟩ := Option.ne_none_iff_exists'.1 hn
  have hranges : headerRanges? h.header = some (h.oldRange, h.newRange) :=
    headerRanges?_header ho hn
  simp [hunkHeader?, hranges, numbers, hoe, hne]

/-! ## Reading the rows -/

/-- Rows that give tokens of the kinds, wherever no row follows that starts like the header of a new
side. -/
def Reads (s : LineState) (rows : List Text) (kinds : List TokenKind) : Prop :=
  ∀ n rest, rest.head?.any newMark.isPrefixOf = false →
    tokenizeFrom s n (rows ++ rest)
      = (tokenizeFrom (kinds.foldl LineState.after s) (n + kinds.length) rest).map
        (numbered n kinds ++ ·)

theorem reads_nil (s : LineState) : Reads s [] [] := by
  intro n rest _
  cases h : tokenizeFrom s n rest <;> simp [numbered, h, Except.map]

/-- A row and the rows below it. The row may be read with an eye on the next one. -/
theorem Reads.cons {s : LineState} {row : Text} {rows : List Text} {kind : TokenKind}
    {kinds : List TokenKind}
    (hrow : ∀ n rest, rest.head?.any newMark.isPrefixOf = false →
      classify s n row (rows ++ rest).head? = .ok kind)
    (hrows : Reads (s.after kind) rows kinds) : Reads s (row :: rows) (kind :: kinds) := by
  intro n rest hrest
  have hshift : n + 1 + kinds.length = n + (kinds.length + 1) := by omega
  rw [List.cons_append, tokenizeFrom_cons (hrow n rest hrest), hrows (n + 1) rest hrest]
  rw [List.foldl_cons, List.length_cons, hshift]
  cases h : tokenizeFrom (kinds.foldl LineState.after (s.after kind)) (n + (kinds.length + 1)) rest
  · rfl
  · rfl

/-- Two blocks of rows, of which the second does not start like the header of a new side. -/
theorem Reads.append {s : LineState} {rows rows' : List Text} {kinds kinds' : List TokenKind}
    (h : Reads s rows kinds) (h' : Reads (kinds.foldl LineState.after s) rows' kinds')
    (hhead : rows'.head?.any newMark.isPrefixOf = false) :
    Reads s (rows ++ rows') (kinds ++ kinds') := by
  intro n rest hrest
  have hnext : (rows' ++ rest).head?.any newMark.isPrefixOf = false := by
    cases rows' with
    | nil => exact hrest
    | cons row rows' => exact hhead
  have hshift : n + kinds.length + kinds'.length = n + (kinds.length + kinds'.length) := by omega
  -- the first block is read with an eye on the second one, the second one with an eye on the rest
  rw [List.append_assoc, h n _ hnext, h' _ rest hrest, List.foldl_append, List.length_append,
    numbered_append, hshift]
  cases tokenizeFrom (kinds'.foldl LineState.after (kinds.foldl LineState.after s))
    (n + (kinds.length + kinds'.length)) rest
  · rfl
  · simp [Except.map]

/-! ## Rows of a hunk -/

/-- The reader inside a hunk. -/
def inside : LineState := ⟨true, false⟩

theorem newMark_isPrefixOf_row (e : Edit) : newMark.isPrefixOf e.row = true ↔
    ∃ l, e = .add l ∧ ['+', '+', ' '] <+: l.text := by
  cases e <;> simp [Edit.row, Edit.mark, Edit.line, newMark_eq]

/-- A row of a hunk is read by its first character, unless it removes a line that starts with `-- `
and the next row starts like the header of a new side. -/
theorem classify_row {e : Edit} {next : Option Text} (n : Nat)
    (h : ∀ l, e = .remove l → ['-', '-', ' '] <+: l.text → next.any newMark.isPrefixOf = false) :
    classify inside n e.row next = .ok e.kind := by
  cases e with
  | keep l =>
    simp [classify, inside, Edit.row, Edit.mark, Edit.line, Edit.kind, oldMark_eq, newMark_eq, hunkMark,
      Text.dropPrefix?, hunkLine]
  | remove l =>
    -- with `-- ` in its text the row looks like a header, and the next row decides
    by_cases hl : ['-', '-', ' '] <+: l.text
    · obtain ⟨tail, htail⟩ := hl
      have hrow : (Edit.remove l).row = oldMark ++ tail := by
        simp [Edit.row, Edit.mark, Edit.line, ← htail, oldMark_eq]
      have hline : hunkLine (Edit.remove l).row = .remove l.text := rfl
      rw [classify, hline, hrow, Text.dropPrefix?_append]
      simp [inside, h l rfl ⟨tail, htail⟩, Edit.kind]
    · have hold : ¬ oldMark <+: (Edit.remove l).row := by
        simpa [Edit.row, Edit.mark, Edit.line, oldMark_eq] using hl
      rw [classify, Text.dropPrefix?_eq_none hold]
      simp [inside, Edit.row, Edit.mark, Edit.line, Edit.kind, newMark_eq, hunkMark, Text.dropPrefix?,
        hunkLine]
  | add l =>
    have hold : ¬ oldMark <+: (Edit.add l).row := by
      simp [Edit.row, Edit.mark, Edit.line, oldMark_eq]
    rw [classify, Text.dropPrefix?_eq_none hold]
    -- inside a hunk the mark of a new side is not looked at on its own
    cases Text.dropPrefix? newMark (Edit.add l).row with
    | some path => rfl
    | none => simp [inside, Edit.row, Edit.mark, Edit.line, Edit.kind, hunkMark, hunkLine]

theorem classify_endMark (n : Nat) (next : Option Text) :
    classify inside n endMark next = .ok .noNewline := by
  obtain ⟨tail, htail⟩ : ∃ tail, endMark = '\\' :: tail := ⟨_, rfl⟩
  rw [htail]
  simp [classify, inside, oldMark_eq, newMark_eq, hunkMark, Text.dropPrefix?, hunkLine]

/-- The rows of one edit. -/
theorem reads_edit {e : Edit} {rows : List Text} {kinds : List TokenKind}
    (hnext : ∀ l, e = .remove l → l.ended = true → ['-', '-', ' '] <+: l.text →
      rows.head?.any newMark.isPrefixOf = false)
    (hrows : Reads inside rows kinds) : Reads inside (e.rows ++ rows) (e.kinds ++ kinds) := by
  have hafter : inside.after e.kind = inside := by cases e <;> rfl
  cases he : e.line.ended with
  | true =>
    simp only [Edit.rows, Edit.kinds, he, if_true, List.singleton_append]
    refine Reads.cons (fun n rest hrest => classify_row n fun l hl hdash => ?_) ?_
    · subst hl
      have hhead := hnext l rfl he hdash
      cases rows with
      | nil => exact hrest
      | cons row rows => exact hhead
    · rw [hafter]
      exact hrows
  | false =>
    simp only [Edit.rows, Edit.kinds, he, Bool.false_eq_true, if_false, List.cons_append,
      List.nil_append]
    refine Reads.cons (fun n rest hrest => classify_row n fun l _ _ => ?_) ?_
    · -- the next row is the mark of a missing line feed
      rfl
    · rw [hafter]
      exact Reads.cons (fun n rest hrest => classify_endMark n _) hrows

/-- The rows of edits in a row. -/
theorem reads_edits {es : List Edit} (h : es.IsChain fun a b => a.readsAsHeader b = false) :
    Reads inside (es.flatMap Edit.rows) (es.flatMap Edit.kinds) := by
  induction es with
  | nil => exact reads_nil inside
  | cons e es ih =>
    rw [List.flatMap_cons, List.flatMap_cons]
    refine reads_edit ?_ (ih h.tail)
    rintro l rfl hl hdash
    cases es with
    | nil => rfl
    | cons f es =>
      have hpair : (Edit.remove l).readsAsHeader f = false := (List.isChain_cons_cons.1 h).1
      -- only an added line that starts with `++ ` starts like the header of a new side
      show newMark.isPrefixOf f.row = false
      rw [Bool.eq_false_iff]
      intro hmark
      obtain ⟨m, rfl, hplus⟩ := (newMark_isPrefixOf_row f).1 hmark
      have hdash' := List.isPrefixOf_iff_prefix.2 hdash
      have hplus' := List.isPrefixOf_iff_prefix.2 hplus
      simp [Edit.readsAsHeader, hl, hdash', hplus'] at hpair

/-! ## Rows of a patch -/

theorem Hunk.classify_header {h : Hunk} (ho : range? h.oldRange ≠ none)
    (hn : range? h.newRange ≠ none) (s : LineState) (n : Nat) (next : Option Text) :
    classify s n h.header next = .ok (.hunk h.numbers) := by
  have hold : ¬ oldMark <+: h.header := by simp [header, hunkMark, oldMark_eq]
  have hnew : ¬ newMark <+: h.header := by simp [header, hunkMark, newMark_eq]
  have hmark : hunkMark.isPrefixOf h.header = true := by simp [header]
  rw [classify, Text.dropPrefix?_eq_none hold, Text.dropPrefix?_eq_none hnew]
  simp [hmark, Hunk.hunkHeader?_header ho hn]

theorem range?_ne_none {before : Nat} {hs : List Hunk} (hnum : Numbered before hs) {h : Hunk}
    (hmem : h ∈ hs) : range? h.oldRange ≠ none ∧ range? h.newRange ≠ none := by
  induction hs generalizing before with
  | nil => cases hmem
  | cons h' hs ih =>
    obtain ⟨ho, hn, hrest⟩ := hnum
    rcases List.mem_cons.1 hmem with rfl | hmem
    · exact ⟨ho, by simp [hn]⟩
    · exact ih hrest hmem

/-- The rows of hunks whose headers read as ranges. -/
theorem reads_hunks {hs : List Hunk}
    (hranges : ∀ h ∈ hs, range? h.oldRange ≠ none ∧ range? h.newRange ≠ none)
    (hheader : ∀ h ∈ hs, h.edits.IsChain fun a b => a.readsAsHeader b = false) (s : LineState) :
    Reads s (hs.flatMap Hunk.rows) (hs.flatMap Hunk.kinds) := by
  induction hs generalizing s with
  | nil => exact reads_nil s
  | cons h hs ih =>
    obtain ⟨⟨ho, hn⟩, hrest⟩ := List.forall_mem_cons.1 hranges
    rw [List.flatMap_cons, List.flatMap_cons, Hunk.rows, Hunk.kinds, List.cons_append,
      List.cons_append]
    refine Reads.cons (fun n rest _ => Hunk.classify_header ho hn s n _) ?_
    -- the next hunk starts with its header, which no header of a file starts like
    refine Reads.append (reads_edits (hheader h (List.mem_cons_self ..))) ?_ ?_
    · exact ih hrest (fun h' hmem => hheader h' (List.mem_cons_of_mem _ hmem)) _
    · cases hs with
      | nil => rfl
      | cons h' hs => simp [Hunk.rows, Hunk.header, hunkMark, newMark_eq, List.isPrefixOf]

/-- A revision whose rows are rows of a patch. -/
structure Readable (r : Revision) : Prop where
  plain_path : IsPlainPath r.path
  ranges : ∀ h ∈ r.hunks, range? h.oldRange ≠ none ∧ range? h.newRange ≠ none
  lf_notMem : ∀ e ∈ r.edits, Text.lf ∉ e.line.text
  /-- A carriage return at the end of a row would be dropped. -/
  no_cr : ∀ e ∈ r.edits, e.line.text.getLast? ≠ some Text.cr

/-- The rows of a revision of which no two read as headers. -/
theorem Readable.reads_rows {r : Revision} (h : r.Readable)
    (hheader : ∀ h ∈ r.hunks, h.edits.IsChain fun a b => a.readsAsHeader b = false)
    (s : LineState) : Reads s r.rows r.kinds := by
  have hnewHeader : newMark.isPrefixOf r.newHeader = true := by simp [newHeader]
  have hold : ¬ oldMark <+: r.newHeader := by simp [newHeader, oldMark_eq, newMark_eq]
  refine Reads.cons (fun n rest _ => ?_) (Reads.cons (fun n rest _ => ?_) ?_)
  · -- the row below names the new side, so this one is a header wherever it stands
    rw [classify, oldHeader, Text.dropPrefix?_append]
    simp [hnewHeader, headerPath_oldName h.plain_path]
  · have hpath := headerPath_side (Or.inr rfl) h.plain_path
    rw [classify, Text.dropPrefix?_eq_none hold, newHeader, Text.dropPrefix?_append]
    simp [LineState.after, hpath]
  · exact reads_hunks h.ranges hheader _

/-- The line of an edit stands on a side of its revision. -/
theorem line_mem {r : Revision} {e : Edit} (h : e ∈ r.edits) :
    e.line ∈ r.oldLines ∨ e.line ∈ r.newLines := by
  obtain ⟨hunk, hhunk, he⟩ := List.mem_flatMap.1 h
  have hside : ∀ f : Edit → List FileLine, e.line ∈ f e →
      e.line ∈ r.hunks.flatMap (fun h => h.gap ++ h.edits.flatMap f) ++ r.rest := by
    intro f hf
    refine List.mem_append_left _ (List.mem_flatMap.2 ⟨hunk, hhunk, ?_⟩)
    exact List.mem_append_right _ (List.mem_flatMap.2 ⟨e, he, hf⟩)
  cases e with
  | keep l => exact .inl (hside Edit.old (by simp [Edit.old, Edit.line]))
  | remove l => exact .inl (hside Edit.old (by simp [Edit.old, Edit.line]))
  | add l => exact .inr (hside Edit.new (by simp [Edit.new, Edit.line]))

theorem Consistent.readable {r : Revision} (h : r.Consistent) : r.Readable where
  plain_path := h.plain_path
  ranges _ hhunk := range?_ne_none h.numbered hhunk
  lf_notMem e he := by
    rcases line_mem he with hmem | hmem
    · exact h.old_side.lf_notMem _ hmem
    · exact h.new_side.lf_notMem _ hmem
  no_cr := h.no_cr

/-- The rows of a revision. -/
theorem reads_rows {r : Revision} (h : r.WellFormed) (s : LineState) : Reads s r.rows r.kinds :=
  h.readable.reads_rows h.no_header s

theorem reads_patch {rs : List Revision} (h : ∀ r ∈ rs, r.WellFormed) (s : LineState) :
    Reads s (rs.flatMap rows) (rs.flatMap kinds) := by
  induction rs generalizing s with
  | nil => exact reads_nil s
  | cons r rs ih =>
    rw [List.flatMap_cons, List.flatMap_cons]
    refine Reads.append (reads_rows (h r (List.mem_cons_self ..)) s) ?_ ?_
    · exact ih (fun r' hmem => h r' (List.mem_cons_of_mem _ hmem)) _
    · cases rs with
      | nil => rfl
      | cons r' rs => simp [rows, oldHeader, oldMark_eq, newMark_eq, List.isPrefixOf]

/-! ## The rows as lines -/

/-- A row that the splitting into lines gives back: no line feed in it, and no carriage return at
its end. -/
structure IsRow (t : Text) : Prop where
  lf_notMem : Text.lf ∉ t
  getLast?_ne : t.getLast? ≠ some Text.cr

/-- Characters in front of a row that ends with a row. -/
theorem IsRow.append {a t : Text} (ha : Text.lf ∉ a ∧ Text.cr ∉ a) (h : IsRow t) :
    IsRow (a ++ t) where
  lf_notMem := by simp [ha.1, h.lf_notMem]
  getLast?_ne := by
    rw [List.getLast?_append]
    cases hlast : t.getLast? with
    | none => exact fun heq => ha.2 (List.mem_of_getLast? (by simpa using heq))
    | some c =>
      have := h.getLast?_ne
      rwa [hlast] at this

theorem isRow_of_notMem {t : Text} (hlf : Text.lf ∉ t) (hcr : Text.cr ∉ t) : IsRow t where
  lf_notMem := hlf
  getLast?_ne h := hcr (List.mem_of_getLast? h)

theorem isRow_endMark : IsRow endMark := isRow_of_notMem (by decide) (by decide)

/-- The ranges of a hunk header hold no ends of lines. -/
theorem notMem_range {t : Text} (h : range? t ≠ none) {c : Char} (hc : isRangeChar c = false) :
    c ∉ t := by
  intro hmem
  rw [(isRangeChar_of_range? h).2 c hmem] at hc
  cases hc

theorem Hunk.isRow_header {h : Hunk} (ho : range? h.oldRange ≠ none)
    (hn : range? h.newRange ≠ none) : IsRow h.header := by
  apply isRow_of_notMem
  · have hold : '\n' ∉ h.oldRange := notMem_range ho (by decide)
    have hnew : '\n' ∉ h.newRange := notMem_range hn (by decide)
    simp [header, hunkMark, Text.lf, hold, hnew]
  · have hold : '\r' ∉ h.oldRange := notMem_range ho (by decide)
    have hnew : '\r' ∉ h.newRange := notMem_range hn (by decide)
    simp [header, hunkMark, Text.cr, hold, hnew]

theorem Edit.isRow {e : Edit} (hlf : Text.lf ∉ e.line.text)
    (hcr : e.line.text.getLast? ≠ some Text.cr) : ∀ row ∈ e.rows, IsRow row := by
  intro row hrow
  rcases List.mem_cons.1 hrow with rfl | hrow
  · refine IsRow.append (a := [e.mark]) ?_ ⟨hlf, hcr⟩
    cases e <;> simp [mark, Text.lf, Text.cr]
  · cases he : e.line.ended with
    | true => simp [he] at hrow
    | false =>
      obtain rfl : row = endMark := by simpa [he] using hrow
      exact isRow_endMark

theorem Readable.isRow {r : Revision} (h : r.Readable) : ∀ row ∈ r.rows, IsRow row := by
  have hpath : IsRow ('/' :: r.path) := by
    apply isRow_of_notMem
    · simpa [Text.lf] using h.plain_path.lf_notMem
    · simpa [Text.cr] using h.plain_path.cr_notMem
  intro row hrow
  -- the row is a header of the file, a header of a hunk or a row of an edit
  rcases List.mem_cons.1 hrow with rfl | hrow
  · refine IsRow.append (by decide) ?_
    cases hc : r.creates with
    | true => simpa [oldName, hc] using isRow_of_notMem (t := nullDevice) (by decide) (by decide)
    | false => simpa [oldName, hc] using IsRow.append (a := ['a']) (by decide) hpath
  rcases List.mem_cons.1 hrow with rfl | hrow
  · refine IsRow.append (by decide) ?_
    exact IsRow.append (a := ['b']) (by decide) hpath
  obtain ⟨hunk, hhunk, hrow⟩ := List.mem_flatMap.1 hrow
  rcases List.mem_cons.1 hrow with rfl | hrow
  · obtain ⟨ho, hn⟩ := h.ranges hunk hhunk
    exact Hunk.isRow_header ho hn
  obtain ⟨e, he, hrow⟩ := List.mem_flatMap.1 hrow
  have hedit : e ∈ r.edits := List.mem_flatMap.2 ⟨hunk, hhunk, he⟩
  exact Edit.isRow (h.lf_notMem e hedit) (h.no_cr e hedit) row hrow

theorem isRow_of_mem_rows {r : Revision} (h : r.WellFormed) : ∀ row ∈ r.rows, IsRow row :=
  h.readable.isRow

/-- The lines of a text that holds rows, each with a line feed, are the rows. -/
theorem patchLines_unlines {rows : List Text} (hne : rows ≠ []) (h : ∀ row ∈ rows, IsRow row) :
    patchLines (Text.unlines rows) = rows := by
  rw [patchLines, Text.splitOn_unlines hne fun row hrow => (h row hrow).lf_notMem]
  calc rows.map Text.dropCr = rows.map id :=
        List.map_congr_left fun row hrow => Text.dropCr_eq_self (h row hrow).getLast?_ne
    _ = rows := List.map_id rows

/-- The patch of well-formed revisions is read as it is meant. -/
theorem tokenize_patch {rs : List Revision} (hne : rs ≠ []) (h : ∀ r ∈ rs, r.WellFormed) :
    tokenize (patch rs) = .ok (numbered 1 (rs.flatMap kinds)) := by
  have hrows : rs.flatMap rows ≠ [] := by
    cases rs with
    | nil => exact absurd rfl hne
    | cons r rs => simp [rows]
  have hrow : ∀ row ∈ rs.flatMap rows, IsRow row := by
    intro row hrow
    obtain ⟨r, hr, hrow⟩ := List.mem_flatMap.1 hrow
    exact isRow_of_mem_rows (h r hr) row hrow
  have hread := reads_patch h ⟨false, false⟩ 1 [] rfl
  rw [tokenize, patch, patchLines_unlines hrows hrow]
  simpa [tokenizeFrom, Except.map] using hread

end Revision

end Mend
