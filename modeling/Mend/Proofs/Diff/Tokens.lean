import Mend.Proofs.Diff.RoundTrip

/-!
# The tokens of a diff

A unified diff is read as it was printed: its two headers, and for each hunk the numbers of its
header and its lines, one by one (`Text.meantKinds`). There is one exception. The reader decides
whether a row is a header by the row after it and not by the counts in the header of the hunk, so a
removed line that starts with `-- ` and is directly followed by an added line that starts with `++ `
is read as the headers of another file. A diff is read as it was printed exactly when it has no such
pair (`Text.tokenize_unifiedDiffBy`).

Each group of operations is the hunk of some parts of the two files (`Diff.Stands`), whose rows and
tokens are those of `Revision.Hunk`.
-/

namespace Mend

/-- Two tokens in a row whose rows read as the headers of a file. -/
def TokenKind.pairsAsHeaders : TokenKind → TokenKind → Bool
  | .remove t, .add u => ['-', '-', ' '].isPrefixOf t && ['+', '+', ' '].isPrefixOf u
  | _, _ => false

/-- Whether a token is about a line of the old side. -/
def TokenKind.isOld : TokenKind → Bool
  | .remove _ | .context _ => true
  | _ => false

/-- Whether a token is about a line of the new side. -/
def TokenKind.isNew : TokenKind → Bool
  | .add _ | .context _ => true
  | _ => false

namespace Diff

open Revision

/-! ## What is meant -/

/-- The numbers of the header of a group. An empty range names the line before it. -/
def hunkNumbers (group : List Op) : HunkHeader :=
  match group.head?, group.getLast? with
  | some first, some last =>
    let start (first last : Nat) : Nat := if last - first = 0 then first else first + 1
    ⟨start first.old last.oldEnd, last.oldEnd - first.old,
      start first.new last.newEnd, last.newEnd - first.new⟩
  | _, _ => ⟨0, 0, 0, 0⟩

/-- The tokens that a line is meant to give: the line without its terminator, and the mark of a
missing one. -/
def lineKinds (kind : Text → TokenKind) (line : Text) : List TokenKind :=
  kind (Text.dropSuffix [Text.lf] line) :: if isTerminated line then [] else [.noNewline]

/-- The tokens that the lines of a range are meant to give. -/
def rangeKinds (kind : Text → TokenKind) (lines : Array Text) (first length : Nat) :
    List TokenKind :=
  (lines.extract first (first + length)).toList.flatMap (lineKinds kind)

/-- The tokens that the lines of an operation are meant to give. -/
def opKinds (old new : Array Text) (op : Op) : List TokenKind :=
  match op.kind with
  | .keep => rangeKinds .context old op.old op.oldLength
  | _ => rangeKinds .remove old op.old op.oldLength ++ rangeKinds .add new op.new op.newLength

/-- The tokens that the lines of a hunk are meant to give. -/
def bodyKinds (old new : Array Text) (group : List Op) : List TokenKind :=
  group.flatMap (opKinds old new)

/-- The tokens that a hunk is meant to give. -/
def hunkKinds (old new : Array Text) (group : List Op) : List TokenKind :=
  .hunk (hunkNumbers group) :: bodyKinds old new group

end Diff

/-- The tokens that a diff is meant to give. -/
def Text.meantKinds (lineDiff : Array Text → Array Text → List Diff.Op) (path old new : Text) :
    List TokenKind :=
  let a := (terminatedLines old).toArray
  let b := (terminatedLines new).toArray
  .oldHeader (some path) :: .newHeader (some path) ::
    (Diff.groups Diff.contextLines (lineDiff a b)).flatMap (Diff.hunkKinds a b)

namespace Diff

open Revision

/-! ## Groups of parts -/

/-- A group that is made of parts of two files. -/
structure Stands (la lb : List FileLine) (i j : Nat) (ps : List Part) (group : List Op) : Prop where
  ne_nil : ps ≠ []
  eq : group = opsAt i j ps
  old : ∃ rest, la.drop i = oldOf ps ++ rest
  new : ∃ rest, lb.drop j = newOf ps ++ rest
  old_le : i + (oldOf ps).length ≤ la.length
  new_le : j + (newOf ps).length ≤ lb.length

variable {la lb : List FileLine}

/-- Groups that cover an edit script of two files are made of parts of them. -/
theorem Covers.stands {i j : Nat} {gs : List (List Op)} {es : List Edit} (h : Covers i j gs es)
    (hi : i ≤ la.length) (hj : j ≤ lb.length) (ha : la.drop i = es.flatMap Edit.old)
    (hb : lb.drop j = es.flatMap Edit.new) :
    ∀ g ∈ gs, ∃ i j ps, Stands la lb i j ps g := by
  induction h with
  | rest => exact fun g hg => nomatch hg
  | gap ls _ ih =>
    have hkept : (ls.map Edit.keep).flatMap Edit.old = ls ∧
        (ls.map Edit.keep).flatMap Edit.new = ls := by
      simp [List.flatMap_map, Edit.old, Edit.new]
    rw [List.flatMap_append, hkept.1] at ha
    rw [List.flatMap_append, hkept.2] at hb
    obtain ⟨hi', ha'⟩ := drop_add_of_drop_eq hi ha
    obtain ⟨hj', hb'⟩ := drop_add_of_drop_eq hj hb
    exact ih hi' hj' ha' hb'
  | @group i j gs es ps hne _ ih =>
    rw [List.flatMap_append, editsOf_old] at ha
    rw [List.flatMap_append, editsOf_new] at hb
    obtain ⟨hi', ha'⟩ := drop_add_of_drop_eq hi ha
    obtain ⟨hj', hb'⟩ := drop_add_of_drop_eq hj hb
    exact List.forall_mem_cons.2
      ⟨⟨i, j, ps, hne, rfl, ⟨_, ha⟩, ⟨_, hb⟩, hi', hj'⟩, ih hi' hj' ha' hb'⟩

/-- Without a group nothing changes. -/
theorem Covers.old_eq_new {i j : Nat} {es : List Edit} (h : Covers i j [] es) :
    es.flatMap Edit.old = es.flatMap Edit.new := by
  generalize hgs : ([] : List (List Op)) = gs at h
  induction h with
  | rest i j ls => simp [List.flatMap_map, Edit.old, Edit.new]
  | gap ls _ ih => simp [List.flatMap_map, Edit.old, Edit.new, ih hgs]
  | group hne h ih => cases hgs

/-! ## The tokens of a group -/

/-- A line is meant as the tokens of its edit. -/
theorem lineKinds_written {e : Edit} {kind : Text → TokenKind} (h : IsPlain e.line)
    (hkind : e.kind = kind e.line.text) : lineKinds kind e.line.written = e.kinds := by
  have htext : Text.dropSuffix [Text.lf] e.line.written = e.line.text :=
    congrArg FileLine.text (lineOf_written h.lf_notMem)
  rw [lineKinds, isTerminated_written h, htext, Edit.kinds, hkind]

/-- The lines of a range are meant as the tokens of their edits. -/
theorem rangeKinds_writtenLines {ls ms : List FileLine} {i n : Nat} (hms : (ls.drop i).take n = ms)
    (hplain : ∀ l ∈ ls, IsPlain l) {f : FileLine → Edit} {kind : Text → TokenKind}
    (hkind : ∀ l, (f l).kind = kind l.text) (hline : ∀ l, (f l).line = l) :
    rangeKinds kind (writtenLines ls) i n = (ms.map f).flatMap Edit.kinds := by
  rw [rangeKinds, extract_writtenLines, hms, writtenLines, List.flatMap_map, List.flatMap_map]
  refine List.flatMap_congr fun m hm => ?_
  have hplainm : IsPlain m := by
    rw [← hms] at hm
    exact hplain m (List.mem_of_mem_drop (List.mem_of_mem_take hm))
  have hkind : (f m).kind = kind (f m).line.text := by rw [hkind, hline]
  have h := lineKinds_written (e := f m) ((hline m).symm ▸ hplainm) hkind
  rwa [hline] at h

/-- The lines of an operation are meant as the tokens of its part. -/
theorem opKinds_op {p : Part} {i j : Nat} {ra rb : List FileLine} (ha : la.drop i = p.old ++ ra)
    (hb : lb.drop j = p.new ++ rb) (hpa : ∀ l ∈ la, IsPlain l) (hpb : ∀ l ∈ lb, IsPlain l) :
    opKinds (writtenLines la) (writtenLines lb) (p.op i j) = p.edits.flatMap Edit.kinds := by
  have hold : (la.drop i).take p.old.length = p.old := by rw [ha, List.take_left]
  have hnew : (lb.drop j).take p.new.length = p.new := by rw [hb, List.take_left]
  have hremoved : rangeKinds .remove (writtenLines la) i p.old.length
      = (p.old.map Edit.remove).flatMap Edit.kinds :=
    rangeKinds_writtenLines hold hpa (fun _ => rfl) fun _ => rfl
  have hadded : rangeKinds .add (writtenLines lb) j p.new.length
      = (p.new.map Edit.add).flatMap Edit.kinds :=
    rangeKinds_writtenLines hnew hpb (fun _ => rfl) fun _ => rfl
  by_cases hkind : p.kind = .keep
  · cases p with
    | keep ls => exact rangeKinds_writtenLines hold hpa (f := .keep) (fun _ => rfl) fun _ => rfl
    | delete os => cases hkind
    | insert ns => cases hkind
    | replace os ns => cases hkind
  · have hchange : opKinds (writtenLines la) (writtenLines lb) (p.op i j)
        = rangeKinds .remove (writtenLines la) i p.old.length
          ++ rangeKinds .add (writtenLines lb) j p.new.length := by
      cases p <;> first | rfl | exact absurd rfl hkind
    rw [hchange, hremoved, hadded, Part.edits_eq_append hkind, List.flatMap_append]

/-- The lines of a group are meant as the tokens of its parts. -/
theorem bodyKinds_opsAt {ps : List Part} {i j : Nat} {ra rb : List FileLine}
    (ha : la.drop i = oldOf ps ++ ra) (hb : lb.drop j = newOf ps ++ rb)
    (hpa : ∀ l ∈ la, IsPlain l) (hpb : ∀ l ∈ lb, IsPlain l) :
    bodyKinds (writtenLines la) (writtenLines lb) (opsAt i j ps)
      = (editsOf ps).flatMap Edit.kinds := by
  induction ps generalizing i j with
  | nil => rfl
  | cons p ps ih =>
    rw [oldOf_cons, List.append_assoc] at ha
    rw [newOf_cons, List.append_assoc] at hb
    have ha' : la.drop (i + p.old.length) = oldOf ps ++ ra := by
      rw [← List.drop_drop, ha, List.drop_left]
    have hb' : lb.drop (j + p.new.length) = newOf ps ++ rb := by
      rw [← List.drop_drop, hb, List.drop_left]
    have hrest : (opsAt (i + p.old.length) (j + p.new.length) ps).flatMap
        (opKinds (writtenLines la) (writtenLines lb)) = (editsOf ps).flatMap Edit.kinds :=
      ih ha' hb'
    rw [opsAt, bodyKinds, List.flatMap_cons, opKinds_op ha hb hpa hpb, hrest, editsOf_cons,
      List.flatMap_append]

/-- The numbers of a group are the ranges of its parts. -/
theorem hunkNumbers_opsAt {ps : List Part} (hne : ps ≠ []) (i j : Nat) :
    hunkNumbers (opsAt i j ps)
      = ⟨if (oldOf ps).length = 0 then i else i + 1, (oldOf ps).length,
        if (newOf ps).length = 0 then j else j + 1, (newOf ps).length⟩ := by
  obtain ⟨first, last, hfirst, hlast, hold, hnew, holdEnd, hnewEnd⟩ := exists_ends_opsAt hne i j
  rw [hunkNumbers, hfirst, hlast]
  simp [hold, hnew, holdEnd, hnewEnd]

/-- A hunk whose rows can be read: its ranges are ranges, and its lines are lines. -/
structure IsReadable (h : Revision.Hunk) : Prop where
  old_range : Patch.range? h.oldRange ≠ none
  new_range : Patch.range? h.newRange ≠ none
  lf_notMem : ∀ e ∈ h.edits, Text.lf ∉ e.line.text
  cr_notMem : ∀ e ∈ h.edits, Text.cr ∉ e.line.text

section Group

variable {i j : Nat} {ps : List Part} {group : List Op}

/-- A group is a hunk that can be read, with the tokens that are meant. -/
theorem Stands.hunk (h : Stands la lb i j ps group) (hpa : ∀ l ∈ la, IsPlain l)
    (hpb : ∀ l ∈ lb, IsPlain l) (hcra : ∀ l ∈ la, Text.cr ∉ l.text)
    (hcrb : ∀ l ∈ lb, Text.cr ∉ l.text) (hla : la.length < 2 ^ 64) (hlb : lb.length < 2 ^ 64) :
    hunkText (writtenLines la) (writtenLines lb) group = Text.unlines (hunkAt i j [] ps).rows ∧
      hunkKinds (writtenLines la) (writtenLines lb) group = (hunkAt i j [] ps).kinds ∧
      IsReadable (hunkAt i j [] ps) := by
  obtain ⟨hne, rfl, ⟨ra, ha⟩, ⟨rb, hb⟩, hia, hjb⟩ := h
  have hrange := range?_rangeText (Nat.le_add_right i (oldOf ps).length) (by omega)
  have hrange' := range?_rangeText (Nat.le_add_right j (newOf ps).length) (by omega)
  rw [Nat.add_sub_cancel_left] at hrange hrange'
  -- a line of an edit stands in one of the files
  have hline : ∀ {P : FileLine → Prop}, (∀ l ∈ la, P l) → (∀ l ∈ lb, P l) →
      ∀ e ∈ (hunkAt i j [] ps).edits, P e.line := by
    intro P hPa hPb e he
    have hold : ∀ l ∈ e.old, P l := fun l hl => hPa l (List.mem_of_mem_drop (ha ▸
      List.mem_append_left _ (editsOf_old ps ▸ List.mem_flatMap.2 ⟨e, he, hl⟩)))
    have hnew : ∀ l ∈ e.new, P l := fun l hl => hPb l (List.mem_of_mem_drop (hb ▸
      List.mem_append_left _ (editsOf_new ps ▸ List.mem_flatMap.2 ⟨e, he, hl⟩)))
    cases e with
    | keep l => exact hold l (List.mem_singleton_self l)
    | remove l => exact hold l (List.mem_singleton_self l)
    | add l => exact hnew l (List.mem_singleton_self l)
  refine ⟨hunkText_opsAt hne [] ha hb hpa hpb, ?_, ?_, ?_, ?_, hline hcra hcrb⟩
  · rw [hunkKinds, hunkNumbers_opsAt hne, bodyKinds_opsAt ha hb hpa hpb, Hunk.kinds, Hunk.numbers]
    simp [hunkAt, hrange, hrange']
  · simp [hunkAt, hrange]
  · simp [hunkAt, hrange']
  · exact hline (fun l hl => (hpa l hl).lf_notMem) fun l hl => (hpb l hl).lf_notMem

/-- The tokens of edits are as many on each side as their lines. -/
theorem countP_kinds (es : List Edit) :
    (es.flatMap Edit.kinds).countP TokenKind.isOld = (es.flatMap Edit.old).length ∧
      (es.flatMap Edit.kinds).countP TokenKind.isNew = (es.flatMap Edit.new).length := by
  induction es with
  | nil => exact ⟨rfl, rfl⟩
  | cons e es ih =>
    have hedit : e.kinds.countP TokenKind.isOld = e.old.length ∧
        e.kinds.countP TokenKind.isNew = e.new.length := by
      rw [Edit.kinds]
      cases e <;> split <;> exact ⟨rfl, rfl⟩
    simp only [List.flatMap_cons, List.countP_append, List.length_append, hedit, ih, and_self]

/-- The numbers of a group count the tokens that its lines are meant to give. -/
theorem Stands.counts (h : Stands la lb i j ps group) (hpa : ∀ l ∈ la, IsPlain l)
    (hpb : ∀ l ∈ lb, IsPlain l) :
    (bodyKinds (writtenLines la) (writtenLines lb) group).countP TokenKind.isOld
        = (hunkNumbers group).oldLength ∧
      (bodyKinds (writtenLines la) (writtenLines lb) group).countP TokenKind.isNew
        = (hunkNumbers group).newLength := by
  obtain ⟨hne, rfl, ⟨ra, ha⟩, ⟨rb, hb⟩, -, -⟩ := h
  rw [bodyKinds_opsAt ha hb hpa hpb, hunkNumbers_opsAt hne]
  have hcounts := countP_kinds (editsOf ps)
  rwa [editsOf_old, editsOf_new] at hcounts

end Group

/-- Groups that are made of parts are hunks that can be read. -/
theorem exists_hunks_of_stands {gs : List (List Op)}
    (h : ∀ g ∈ gs, ∃ i j ps, Stands la lb i j ps g) (hpa : ∀ l ∈ la, IsPlain l)
    (hpb : ∀ l ∈ lb, IsPlain l) (hcra : ∀ l ∈ la, Text.cr ∉ l.text)
    (hcrb : ∀ l ∈ lb, Text.cr ∉ l.text) (hla : la.length < 2 ^ 64) (hlb : lb.length < 2 ^ 64) :
    ∃ hs : List Revision.Hunk,
      (gs.map (hunkText (writtenLines la) (writtenLines lb))).flatten
        = Text.unlines (hs.flatMap Hunk.rows) ∧
      gs.flatMap (hunkKinds (writtenLines la) (writtenLines lb)) = hs.flatMap Hunk.kinds ∧
      ∀ h ∈ hs, IsReadable h := by
  induction gs with
  | nil => exact ⟨[], rfl, rfl, nofun⟩
  | cons g gs ih =>
    rw [List.forall_mem_cons] at h
    obtain ⟨⟨i, j, ps, hstands⟩, hrest⟩ := h
    obtain ⟨htext, hkinds, hreadable⟩ := hstands.hunk hpa hpb hcra hcrb hla hlb
    obtain ⟨hs, htexts, hkindss, hreadables⟩ := ih hrest
    refine ⟨hunkAt i j [] ps :: hs, ?_, ?_, List.forall_mem_cons.2 ⟨hreadable, hreadables⟩⟩
    · rw [List.map_cons, List.flatten_cons, htext, htexts, List.flatMap_cons, Text.unlines_append]
    · rw [List.flatMap_cons, hkinds, hkindss, List.flatMap_cons]

/-! ## Pairs that read as headers -/

/-- The last token of an edit and the first one of another pair as headers if the edits do. -/
theorem pairsAsHeaders_kinds (a b : Edit) :
    (∀ k ∈ a.kinds.getLast?, ∀ l ∈ b.kinds.head?, k.pairsAsHeaders l = false) ↔
      a.readsAsHeader b = false := by
  have hhead : b.kinds.head? = some b.kind := rfl
  rw [hhead, Edit.kinds]
  cases ha : a.line.ended with
  | true =>
    cases a with
    | remove l =>
      have hl : l.ended = true := ha
      cases b <;> simp [Edit.kind, TokenKind.pairsAsHeaders, Edit.readsAsHeader, hl]
    | keep l | add l => simp [Edit.kind, TokenKind.pairsAsHeaders, Edit.readsAsHeader]
  | false =>
    -- the mark of a missing line feed stands between the rows
    have hreads : a.readsAsHeader b = false := by
      cases a with
      | remove l =>
        have hl : l.ended = false := ha
        cases b <;> simp [Edit.readsAsHeader, hl]
      | keep l | add l => rfl
    simp [TokenKind.pairsAsHeaders, hreads]

/-- The tokens of edits hold a pair where the edits do. -/
theorem isChain_kinds_edits (es : List Edit) :
    ((es.flatMap Edit.kinds).IsChain fun k l => k.pairsAsHeaders l = false) ↔
      es.IsChain fun a b => a.readsAsHeader b = false := by
  have hnil : [] ∉ es.map Edit.kinds := by simp [Edit.kinds]
  have hsingle : ∀ ks ∈ es.map Edit.kinds, ks.IsChain fun k l => k.pairsAsHeaders l = false := by
    intro ks hks
    obtain ⟨e, -, rfl⟩ := List.mem_map.1 hks
    rw [Edit.kinds]
    cases e <;> split <;> simp [Edit.kind, TokenKind.pairsAsHeaders]
  rw [List.flatMap_def, List.isChain_flatten hnil, and_iff_right hsingle, List.isChain_map]
  simp only [pairsAsHeaders_kinds]

/-- The tokens of hunks hold a pair where the edits of a hunk do. -/
theorem isChain_kinds_hunks (hs : List Revision.Hunk) :
    ((hs.flatMap Hunk.kinds).IsChain fun k l => k.pairsAsHeaders l = false) ↔
      ∀ h ∈ hs, h.edits.IsChain fun a b => a.readsAsHeader b = false := by
  have hnil : [] ∉ hs.map Hunk.kinds := by simp [Hunk.kinds]
  -- a hunk starts with its header, which is no removal and no addition
  have hbetween : (hs.map Hunk.kinds).IsChain fun ks ls =>
      ∀ k ∈ ks.getLast?, ∀ l ∈ ls.head?, k.pairsAsHeaders l = false := by
    rw [List.isChain_map]
    refine (List.pairwise_of_forall fun g h k _ l hl => ?_).isChain
    obtain rfl := Option.some.inj hl
    cases k <;> rfl
  have hheader : ∀ h : Revision.Hunk,
      (h.kinds.IsChain fun k l => k.pairsAsHeaders l = false) ↔
        h.edits.IsChain fun a b => a.readsAsHeader b = false := fun h => by
    rw [Hunk.kinds, List.isChain_cons, isChain_kinds_edits]
    exact and_iff_right fun _ _ => rfl
  rw [List.flatMap_def, List.isChain_flatten hnil, and_iff_left hbetween, List.forall_mem_map]
  simp only [hheader]

end Diff

/-! ## Reading the rows -/

namespace Patch

/-- A row that starts with the mark of a hunk is a hunk header. -/
def HasHeader (row : Text) : Prop := hunkMark <+: row → hunkHeader? row ≠ none

theorem exists_classify {row : Text} (h : HasHeader row) (s : LineState) (n : Nat)
    (next : Option Text) : ∃ kind, classify s n row next = .ok kind := by
  rw [classify]
  split
  · split <;> exact ⟨_, rfl⟩
  · split <;> exact ⟨_, rfl⟩
  · split
    · rename_i hmark
      obtain ⟨header, hheader⟩ := Option.ne_none_iff_exists'.1 (h (List.isPrefixOf_iff_prefix.1 hmark))
      rw [hheader]
      exact ⟨_, rfl⟩
    · split <;> exact ⟨_, rfl⟩

/-- Rows are read if those that look like hunk headers are some. -/
theorem exists_tokenizeFrom {rows : List Text} (h : ∀ row ∈ rows, HasHeader row) (s : LineState)
    (n : Nat) : ∃ tokens, tokenizeFrom s n rows = .ok tokens := by
  induction rows generalizing s n with
  | nil => exact ⟨[], rfl⟩
  | cons row rest ih =>
    rw [List.forall_mem_cons] at h
    obtain ⟨kind, hkind⟩ := exists_classify h.1 s n rest.head?
    obtain ⟨tokens, htokens⟩ := ih h.2 (s.after kind) (n + 1)
    exact ⟨⟨n, kind⟩ :: tokens, by rw [tokenizeFrom_cons hkind, htokens]; rfl⟩

/-- A row that starts like the header of an old side is one if the next row starts like the header
of a new side, wherever they stand. -/
theorem oldHeader_mem_of_pair {front back : List Text} {row next : Text} (hrow : oldMark <+: row)
    (hnext : newMark <+: next) {s : LineState} {n : Nat} {tokens : List Token}
    (h : tokenizeFrom s n (front ++ row :: next :: back) = .ok tokens) :
    ∃ path, ⟨n + front.length, .oldHeader path⟩ ∈ tokens := by
  induction front generalizing s n tokens with
  | nil =>
    obtain ⟨tail, rfl⟩ := hrow
    have hheader : classify s n (oldMark ++ tail) (some next)
        = .ok (.oldHeader (headerPath tail)) := by
      rw [classify, Text.dropPrefix?_append]
      simp [List.isPrefixOf_iff_prefix.2 hnext]
    rw [List.nil_append, tokenizeFrom_cons hheader] at h
    cases hrest : tokenizeFrom (s.after (.oldHeader (headerPath tail))) (n + 1) (next :: back) with
    | error e =>
      rw [hrest] at h
      cases h
    | ok rest =>
      rw [hrest] at h
      cases h
      exact ⟨headerPath tail, List.mem_cons_self ..⟩
  | cons first front ih =>
    rw [List.cons_append, tokenizeFrom] at h
    split at h
    · cases h
    split at h
    · cases h
    rename_i rest hrest
    cases h
    obtain ⟨path, hpath⟩ := ih hrest
    refine ⟨path, List.mem_cons_of_mem _ ?_⟩
    rwa [List.length_cons, Nat.add_comm front.length, ← Nat.add_assoc]

/-- A token of given kinds is on the row of its kind. -/
theorem exists_of_mem_numbered {n line : Nat} {kind : TokenKind} {kinds : List TokenKind}
    (h : ⟨line, kind⟩ ∈ numbered n kinds) : n ≤ line ∧ kind ∈ kinds := by
  induction kinds generalizing n with
  | nil => cases h
  | cons k kinds ih =>
    rcases List.mem_cons.1 h with heq | h
    · cases heq
      exact ⟨Nat.le_refl _, List.mem_cons_self ..⟩
    · obtain ⟨hle, hmem⟩ := ih h
      exact ⟨Nat.le_of_succ_le hle, List.mem_cons_of_mem _ hmem⟩

end Patch

namespace Revision

open Patch

variable {r : Revision}

theorem Readable.patchLines_eq (h : r.Readable) : patchLines (Text.unlines r.rows) = r.rows :=
  patchLines_unlines (by simp [rows]) h.isRow

theorem Edit.hasHeader {e : Edit} {row : Text} (hrow : row ∈ e.rows) : HasHeader row := by
  -- a row of an edit starts with its mark
  obtain ⟨tail, htail⟩ : ∃ tail, endMark = '\\' :: tail := ⟨_, rfl⟩
  intro hmark
  rcases List.mem_cons.1 hrow with rfl | hrow
  · cases e <;> simp [row, mark, hunkMark] at hmark
  · split at hrow
    · cases hrow
    · obtain rfl := List.mem_singleton.1 hrow
      rw [htail] at hmark
      simp [hunkMark] at hmark

/-- The rows of a revision are read. -/
theorem Readable.exists_tokens (h : r.Readable) :
    ∃ tokens, tokenize (Text.unlines r.rows) = .ok tokens := by
  have hrow : ∀ row ∈ r.rows, HasHeader row := by
    intro row hrow
    rcases List.mem_cons.1 hrow with rfl | hrow
    · intro hmark
      simp [oldHeader, hunkMark, oldMark_eq] at hmark
    rcases List.mem_cons.1 hrow with rfl | hrow
    · intro hmark
      simp [newHeader, hunkMark, newMark_eq] at hmark
    obtain ⟨hunk, hhunk, hrow⟩ := List.mem_flatMap.1 hrow
    rcases List.mem_cons.1 hrow with rfl | hrow
    · obtain ⟨ho, hn⟩ := h.ranges hunk hhunk
      intro _
      rw [Hunk.hunkHeader?_header ho hn]
      exact Option.some_ne_none _
    · obtain ⟨e, -, hrow⟩ := List.mem_flatMap.1 hrow
      exact Edit.hasHeader hrow
  rw [tokenize, h.patchLines_eq]
  exact exists_tokenizeFrom hrow _ _

/-- Two edits of a hunk that read as headers stand in adjacent rows, below the headers. -/
theorem exists_rows_of_readsAsHeader {hunk : Hunk} (hhunk : hunk ∈ r.hunks) {a b : Edit}
    {before after : List Edit} (hedits : hunk.edits = before ++ a :: b :: after)
    (hreads : a.readsAsHeader b = true) :
    ∃ front row next back, r.rows = front ++ row :: next :: back ∧ front ≠ [] ∧
      oldMark <+: row ∧ newMark <+: next := by
  obtain ⟨hs, hs', hhunks⟩ := List.append_of_mem hhunk
  cases a with
  | keep l => cases hreads
  | add l => cases hreads
  | remove l =>
    cases b with
    | keep m => cases hreads
    | remove m => cases hreads
    | add m =>
      obtain ⟨⟨hended, hdash⟩, hplus⟩ : (l.ended = true ∧ ['-', '-', ' '] <+: l.text) ∧
          ['+', '+', ' '] <+: m.text := by
        simpa [Edit.readsAsHeader] using hreads
      -- the removed line has no mark below it, so the added line comes next
      have hremoved : (Edit.remove l).rows = [(Edit.remove l).row] := by
        simp [Edit.rows, Edit.line, hended]
      obtain ⟨tail, hadded⟩ : ∃ tail, (Edit.add m).rows = (Edit.add m).row :: tail := ⟨_, rfl⟩
      refine ⟨r.oldHeader :: r.newHeader :: hs.flatMap Hunk.rows ++
          hunk.header :: before.flatMap Edit.rows, (Edit.remove l).row, (Edit.add m).row,
        tail ++ after.flatMap Edit.rows ++ hs'.flatMap Hunk.rows,
        ?_, by simp, ?_, ?_⟩
      · have hrows : hunk.rows = hunk.header :: (before.flatMap Edit.rows ++ (Edit.remove l).row ::
            (Edit.add m).row :: (tail ++ after.flatMap Edit.rows)) := by
          rw [Hunk.rows, hedits]
          simp [hremoved, hadded]
        rw [rows, hhunks]
        simp [hrows]
      · simpa [Edit.row, Edit.mark, Edit.line, oldMark_eq] using hdash
      · simpa [Edit.row, Edit.mark, Edit.line, newMark_eq] using hplus

/-- The only header of an old side that a revision is meant to give is its first row. -/
theorem line_of_oldHeader_mem {line : Nat} {path : Option Text}
    (h : ⟨line, .oldHeader path⟩ ∈ numbered 1 r.kinds) : line = 1 := by
  rcases List.mem_cons.1 h with heq | h
  · cases heq
    rfl
  rcases List.mem_cons.1 h with heq | h
  · cases heq
  · obtain ⟨hunk, -, hkind⟩ := List.mem_flatMap.1 (exists_of_mem_numbered h).2
    rcases List.mem_cons.1 hkind with heq | hkind
    · cases heq
    · obtain ⟨e, -, hkind⟩ := List.mem_flatMap.1 hkind
      rw [Edit.kinds] at hkind
      cases e <;> split at hkind <;> simp [Edit.kind] at hkind

/-- The rows of a revision are read as they are meant if and only if no two of them read as
headers. -/
theorem Readable.tokenize_iff (h : r.Readable) :
    tokenize (Text.unlines r.rows) = .ok (numbered 1 r.kinds) ↔
      ∀ hunk ∈ r.hunks, hunk.edits.IsChain fun a b => a.readsAsHeader b = false := by
  rw [tokenize, h.patchLines_eq]
  constructor
  · intro htokens hunk hhunk
    rw [List.isChain_iff_forall_rel_of_append_cons_cons]
    intro a b before after hedits
    rw [Bool.eq_false_iff]
    intro hreads
    obtain ⟨front, row, next, back, hrows, hfront, hrow, hnext⟩ :=
      exists_rows_of_readsAsHeader hhunk hedits hreads
    rw [hrows] at htokens
    obtain ⟨path, hpath⟩ := oldHeader_mem_of_pair hrow hnext htokens
    have hline := line_of_oldHeader_mem hpath
    have hlength := List.length_pos_iff.2 hfront
    omega
  · intro hheader
    have hread := h.reads_rows hheader ⟨false, false⟩ 1 [] rfl
    simpa [tokenizeFrom, Except.map] using hread

end Revision

namespace Text

open Revision

variable {lineDiff : Array Text → Array Text → List Diff.Op} {path old new : Text}

/-- The lines of a file without carriage returns can be shown. -/
theorem isPlain_of_isSide {ls : List FileLine} (hside : FileLine.IsSide ls)
    (hcr : cr ∉ FileLine.content ls) :
    (∀ l ∈ ls, Diff.IsPlain l) ∧ ∀ l ∈ ls, cr ∉ l.text :=
  ⟨fun l hl => ⟨hside.lf_notMem l hl,
      fun _ hlast => hcr (FileLine.mem_content hl (List.mem_of_getLast? hlast)),
      hside.text_ne_nil l hl⟩,
    fun _ hl hmem => hcr (FileLine.mem_content hl hmem)⟩

/-- A diff is the rows of a revision with the tokens that the diff is meant to give. -/
theorem exists_readable (hpath : IsPlainPath path) (hold : cr ∉ old) (hnew : cr ∉ new)
    (holdSize : old.length < 2 ^ 64) (hnewSize : new.length < 2 ^ 64) (hne : old ≠ new)
    (hops : Diff.Partitions (terminatedLines old).toArray (terminatedLines new).toArray 0 0
      (lineDiff (terminatedLines old).toArray (terminatedLines new).toArray)) :
    ∃ r : Revision, r.Readable ∧ unifiedDiffBy lineDiff path old new = unlines r.rows ∧
      meantKinds lineDiff path old new = r.kinds ∧
      ∀ group ∈ Diff.groups Diff.contextLines
          (lineDiff (terminatedLines old).toArray (terminatedLines new).toArray),
        (Diff.bodyKinds (terminatedLines old).toArray (terminatedLines new).toArray
            group).countP TokenKind.isOld = (Diff.hunkNumbers group).oldLength ∧
          (Diff.bodyKinds (terminatedLines old).toArray (terminatedLines new).toArray
            group).countP TokenKind.isNew = (Diff.hunkNumbers group).newLength := by
  obtain ⟨la, hla, rfl, holdLines⟩ := exists_lines hold
  obtain ⟨lb, hlb, rfl, hnewLines⟩ := exists_lines hnew
  obtain ⟨hpa, hcra⟩ := isPlain_of_isSide hla hold
  obtain ⟨hpb, hcrb⟩ := isPlain_of_isSide hlb hnew
  have hsizeA : la.length < 2 ^ 64 := Nat.lt_of_le_of_lt hla.length_le_content holdSize
  have hsizeB : lb.length < 2 ^ 64 := Nat.lt_of_le_of_lt hlb.length_le_content hnewSize
  rw [holdLines, hnewLines] at hops
  obtain ⟨ps, hparts, hpsOld, hpsNew, -⟩ := Diff.exists_parts hla.lf_notMem hlb.lf_notMem hops
  rw [List.drop_zero] at hpsOld hpsNew
  have hcovers := Diff.covers_groups Diff.contextLines ps
  have hstands := hcovers.stands (Nat.zero_le _) (Nat.zero_le _)
    (by rw [List.drop_zero, Diff.editsOf_old, hpsOld])
    (by rw [List.drop_zero, Diff.editsOf_new, hpsNew])
  -- with no group at all the two files would be the same
  have hgroups : Diff.groups Diff.contextLines (Diff.opsAt 0 0 ps) ≠ [] := by
    intro hnil
    rw [hnil] at hcovers
    have hsame := hcovers.old_eq_new
    rw [Diff.editsOf_old, Diff.editsOf_new, hpsOld, hpsNew] at hsame
    exact hne (congrArg FileLine.content hsame)
  obtain ⟨hs, htext, hkinds, hreadable⟩ :=
    Diff.exists_hunks_of_stands hstands hpa hpb hcra hcrb hsizeA hsizeB
  have hedits : ∀ {P : Edit → Prop}, (∀ h ∈ hs, ∀ e ∈ h.edits, P e) →
      ∀ e ∈ (⟨path, false, hs, []⟩ : Revision).edits, P e := fun hP e he => by
    obtain ⟨h, hh, he⟩ := List.mem_flatMap.1 he
    exact hP h hh e he
  refine ⟨⟨path, false, hs, []⟩, ⟨hpath, fun h hh => ?_, ?_, ?_⟩, ?_, ?_, ?_⟩
  · exact ⟨(hreadable h hh).old_range, (hreadable h hh).new_range⟩
  · exact hedits fun h hh => (hreadable h hh).lf_notMem
  · exact hedits fun h hh e he hlast =>
      (hreadable h hh).cr_notMem e he (List.mem_of_getLast? hlast)
  · rw [unifiedDiffBy, if_neg hne]
    simp only [holdLines, hnewLines, hparts, List.isEmpty_eq_false_iff.2 hgroups, htext]
    rw [if_neg Bool.false_ne_true, unlines_headers, ← unlines_append]
    rfl
  · simp only [meantKinds, holdLines, hnewLines, hparts, hkinds]
    rfl
  · rw [holdLines, hnewLines, hparts]
    intro group hgroup
    obtain ⟨i, j, qs, hgroup⟩ := hstands group hgroup
    exact hgroup.counts hpa hpb

end Text

end Mend
