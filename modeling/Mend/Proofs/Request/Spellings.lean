import Mathlib.Data.List.Forall2
import Mend.Proofs.Json.Embedded
import Mend.Proofs.Request.Members
import Mend.Proofs.Request.RoundTrip

/-!
# One list of files, spelled in many ways

A list of files may be spelled as JSON, in a fenced block or not, or with one path a line, and a line
may have quotes, a marker and a comma (`Request.SpellsFiles`). All of these ask for the same files
(`Request.resolve_of_spellsFiles`).

The paths are bare (`Request.IsBarePath`). So a text of lines has no bracket and no colon, and neither
of the stages for JSON reads it; and the item of a list is one word, so the text is no prose.
-/

namespace Mend

namespace Request

open Text (lf isBlank matchAll)

/-- A path of characters that need no quotes, that is no name of a member and holds no name of a
kind. -/
structure IsBarePath (path : Text) : Prop where
  ne_nil : path ≠ []
  bare : ∀ c ∈ path, isBareChar c = true
  no_kind : ∀ word ∈ [RequestKind.file.wireName, RequestKind.listing.wireName],
    Text.hasInfix word path = false
  not_name : path ∉ ["path".toList, "type".toList]

instance (path : Text) : Decidable (IsBarePath path) :=
  decidable_of_iff
    (path ≠ [] ∧ path.all isBareChar = true ∧
      (∀ word ∈ [RequestKind.file.wireName, RequestKind.listing.wireName],
        Text.hasInfix word path = false) ∧ path ∉ ["path".toList, "type".toList])
    ⟨fun ⟨hne, hbare, hkind, hname⟩ => ⟨hne, List.all_eq_true.1 hbare, hkind, hname⟩,
      fun h => ⟨h.ne_nil, List.all_eq_true.2 h.bare, h.no_kind, h.not_name⟩⟩

/-! ## Spellings -/

/-- The value asks for the file: it is the path, or an object that has it as `path` or else as
`filePath`, and the type of files or none. -/
inductive NamesFile : Json → Text → Prop
  | text {path : Text} : NamesFile (.text path) path
  | object {members : List (Text × Json)} {path : Text} :
      (members.lookup "path".toList).or (members.lookup "filePath".toList) = some (.text path) →
      (∀ v ∈ members.lookup "type".toList, v = .text RequestKind.file.wireName) →
      NamesFile (.object members) path

/-- What may stand before the path on its line: nothing, or a bullet or a number and a space. -/
inductive IsMarker : Text → Prop
  | none : IsMarker []
  | bullet {c : Char} : isBullet c = true → IsMarker [c, ' ']
  | number {digits : Text} {c : Char} : digits ≠ [] → (∀ d ∈ digits, d.isDigit = true) →
      c = '.' ∨ c = ')' → IsMarker (digits ++ [c, ' '])

/-- The quotes around a path: none, or one of three kinds. -/
def pathQuotes : List Text := [[], ['"'], ['\''], ['\x60']]

/-- The line is the path, with or without quotes, with a marker or without, and with a comma or
without. -/
inductive SpellsLine : Text → Text → Prop
  | mk {marker quote comma path : Text} : IsMarker marker → quote ∈ pathQuotes →
      comma ∈ [[], [',']] → SpellsLine (marker ++ (quote ++ (path ++ (quote ++ comma)))) path

/-- The text asks for the files, in one of the ways to do so. -/
inductive SpellsFiles (paths : List Text) : Text → Prop
  | list {t : Text} {vs : List Json} : Json.read? t = some (.array vs) → t.plainQuotes = t →
      List.Forall₂ NamesFile vs paths → SpellsFiles paths t
  | fenced {l t rest : Text} {vs : List Json} : lf ∉ l → Text.isFence l = true →
      Json.read? t = some (.array vs) → t.plainQuotes = t →
      List.Forall₂ NamesFile vs paths → SpellsFiles paths (l ++ lf :: (t ++ lf :: rest))
  | lines {t : Text} : List.Forall₂ SpellsLine t.lines paths → SpellsFiles paths t

/-! ## Characters of lines -/

/-- Bare characters are visible characters of ASCII. -/
theorem graphic_of_isBareChar {c : Char} (h : isBareChar c = true) :
    0x20 < c.toNat ∧ c.toNat < 0x7F := by
  have hrange : ∀ {a b : Char}, 0x20 < a.toNat → b.toNat < 0x7F → a.val ≤ c.val → c.val ≤ b.val →
      0x20 < c.toNat ∧ c.toNat < 0x7F := by
    intro a b ha hb hlow hhigh
    have hlow' : a.toNat ≤ c.toNat := UInt32.le_iff_toNat_le.1 hlow
    have hhigh' : c.toNat ≤ b.toNat := UInt32.le_iff_toNat_le.1 hhigh
    omega
  simp only [isBareChar, Bool.or_eq_true, beq_iff_eq, or_assoc] at h
  rcases h with halnum | rfl | rfl | rfl | rfl
  · -- letters and digits stand in three ranges
    rcases Bool.or_eq_true_iff.1 halnum with halpha | hdigit
    · rcases Bool.or_eq_true_iff.1 halpha with hupper | hlower
      · have hupper' : 'A'.val ≤ c.val ∧ c.val ≤ 'Z'.val := of_decide_eq_true hupper
        exact hrange (by decide : 0x20 < 'A'.toNat) (by decide : 'Z'.toNat < 0x7F) hupper'.1 hupper'.2
      · obtain ⟨hlow, hhigh⟩ := Bool.and_eq_true_iff.1 hlower
        exact hrange (by decide : 0x20 < 'a'.toNat) (by decide : 'z'.toNat < 0x7F)
          (of_decide_eq_true hlow) (of_decide_eq_true hhigh)
    · obtain ⟨hlow, hhigh⟩ := Bool.and_eq_true_iff.1 hdigit
      exact hrange (by decide : 0x20 < '0'.toNat) (by decide : '9'.toNat < 0x7F)
        (of_decide_eq_true hlow) (of_decide_eq_true hhigh)
  all_goals decide

theorem isBlank_of_isBareChar {c : Char} (h : isBareChar c = true) : isBlank c = false :=
  Text.isBlank_of_graphic (graphic_of_isBareChar h).1 (graphic_of_isBareChar h).2

/-- A bare path has no other characters than bare ones. -/
theorem IsBarePath.notMem {path : Text} (h : IsBarePath path) {c : Char}
    (hc : isBareChar c = false) : c ∉ path := by
  intro hmem
  rw [h.bare c hmem] at hc
  cases hc

theorem IsBarePath.plain {path : Text} (h : IsBarePath path) : path.plainQuotes = path := by
  refine Text.plainQuotes_eq_self fun c hc => ?_
  obtain ⟨-, hhigh⟩ := graphic_of_isBareChar (h.bare c hc)
  rw [Text.plainChar?, if_neg, if_neg, if_neg, if_neg]
  all_goals
    simp only [Text.isWideBlank, Text.isZeroWidth, Bool.not_eq_true, Bool.or_eq_false_iff,
      Bool.and_eq_false_iff, Bool.and_eq_true, decide_eq_true_eq, decide_eq_false_iff_not,
      beq_eq_false_iff_ne]
    omega

/-- The characters around a path on its line, its marker aside. -/
def aroundPath : Text := ['"', '\'', '\x60', ',']

section Line

variable {marker quote comma path : Text}

theorem mem_word (hquote : quote ∈ pathQuotes) (hcomma : comma ∈ [[], [',']])
    (hpath : ∀ c ∈ path, isBareChar c = true) :
    ∀ c ∈ quote ++ (path ++ (quote ++ comma)), isBareChar c = true ∨ c ∈ aroundPath := by
  have hquotes : ∀ q ∈ pathQuotes, q ⊆ aroundPath := by decide
  have hcommas : ∀ q ∈ [[], [',']], q ⊆ aroundPath := by decide
  intro c hc
  simp only [List.mem_append] at hc
  rcases hc with hc | hc | hc | hc
  · exact .inr (hquotes quote hquote hc)
  · exact .inl (hpath c hc)
  · exact .inr (hquotes quote hquote hc)
  · exact .inr (hcommas comma hcomma hc)

/-- A path with its quotes and its comma is one word. -/
theorem isBlank_of_mem_word (hquote : quote ∈ pathQuotes) (hcomma : comma ∈ [[], [',']])
    (hpath : ∀ c ∈ path, isBareChar c = true) :
    ∀ c ∈ quote ++ (path ++ (quote ++ comma)), isBlank c = false := by
  have haround : ∀ c ∈ aroundPath, isBlank c = false := Text.forall_mem_of_all (by decide)
  intro c hc
  rcases mem_word hquote hcomma hpath c hc with hbare | hmem
  · exact isBlank_of_isBareChar hbare
  · exact haround c hmem

theorem isDecimalDigit_of_isDigit {c : Char} (h : c.isDigit = true) :
    Text.isDecimalDigit c = true := by
  simp only [Char.isDigit, Bool.and_eq_true, decide_eq_true_eq, UInt32.le_iff_toNat_le,
    ge_iff_le] at h
  have hvalue : c.toNat = c.val.toNat := rfl
  have hzero : '0'.val.toNat = 48 := rfl
  have hnine : '9'.val.toNat = 57 := rfl
  rw [Text.isDecimalDigit, Text.decimalDigitRanges, CodeRanges.holds, if_neg (by omega),
    decide_eq_true (by omega : c.toNat ≤ 0x39), Bool.true_or]

theorem mem_of_isBullet {c : Char} (h : isBullet c = true) : c ∈ ['-', '*', '\u2022'] := by
  simp only [isBullet, Bool.or_eq_true, beq_iff_eq, or_assoc] at h
  rcases h with rfl | rfl | h
  · exact .head _
  · exact .tail _ (.head _)
  · obtain rfl : c = '\u2022' := Char.ext (UInt32.toNat_inj.1 h)
    exact .tail _ (.tail _ (.head _))

theorem afterMarker?_bullet {c : Char} (hc : isBullet c = true) (t : Text) :
    afterMarker? (c :: t) = some t := by
  -- a bullet is no digit, so no number is read in its place
  have hbullets : ∀ c ∈ ['-', '*', '\u2022'], Text.isDecimalDigit c = false :=
    Text.forall_mem_of_all (by decide)
  have hdigit : Text.run? Text.isDecimalDigit (c :: t) = none := by
    simp [Text.run?, hbullets c (mem_of_isBullet hc)]
  rw [afterMarker?, hdigit]
  exact if_pos hc

theorem afterMarker?_number {digits : Text} (hne : digits ≠ [])
    (hdigits : ∀ d ∈ digits, d.isDigit = true) {c : Char} (hc : c = '.' ∨ c = ')') (t : Text) :
    afterMarker? (digits ++ c :: t) = some t := by
  have hmem : ∀ d ∈ digits, Text.isDecimalDigit d = true := fun d hd =>
    isDecimalDigit_of_isDigit (hdigits d hd)
  have hend : Text.isDecimalDigit c = false := by
    rcases hc with rfl | rfl
    · decide
    · decide
  have hrun : Text.run? Text.isDecimalDigit (digits ++ c :: t) = some (digits, c :: t) := by
    rw [Text.run?_eq_some_iff, List.takeWhile_append_of_pos hmem, List.dropWhile_append_of_pos hmem]
    simp [hend, hne]
  unfold afterMarker?
  rw [hrun]
  rcases hc with rfl | rfl
  · rfl
  · rfl

/-- Behind a marker the space and the rest of the line are left. -/
theorem afterMarker?_append (hmarker : IsMarker marker) (hne : marker ≠ []) (t : Text) :
    afterMarker? (marker ++ t).trimStart = some (' ' :: t) := by
  cases hmarker with
  | none => exact absurd rfl hne
  | @bullet b hb =>
    have hbullets : ∀ c ∈ ['-', '*', '\u2022'], isBlank c = false :=
      Text.forall_mem_of_all (by decide)
    have hstart : Text.trimStart ([b, ' '] ++ t) = b :: ' ' :: t :=
      List.dropWhile_cons_of_neg (by simp [hbullets b (mem_of_isBullet hb)])
    rw [hstart]
    exact afterMarker?_bullet hb _
  | @number digits b hdigits hall hb =>
    obtain ⟨d, ds, rfl⟩ := List.exists_cons_of_ne_nil hdigits
    have hd := Text.isBlank_of_isDigit (hall d (List.mem_cons_self ..))
    have hstart : Text.trimStart (d :: ds ++ [b, ' '] ++ t) = d :: ds ++ b :: ' ' :: t := by
      rw [List.append_assoc]
      exact List.dropWhile_cons_of_neg (by simp [hd])
    rw [hstart]
    exact afterMarker?_number hdigits hall hb _

/-- A line is read without its marker. -/
theorem itemBody?_append (hmarker : IsMarker marker) (hne : marker ≠ []) {c : Char}
    (hc : isBlank c = false) (t : Text) : itemBody? (marker ++ c :: t) = some (c :: t) := by
  have hspace : Text.run? isBlank (' ' :: c :: t) = some ([' '], c :: t) := by
    have hblank : isBlank ' ' = true := by decide
    simp [Text.run?_eq_some_iff, hblank, hc]
  rw [itemBody?, afterMarker?_append hmarker hne]
  simp [hspace]

/-- What stands behind a marker is a part of the text. -/
theorem afterMarker?_subset {t rest : Text} (h : afterMarker? t = some rest) : rest ⊆ t := by
  have hrun : ∀ {digits : Text} {c : Char},
      Text.run? Text.isDecimalDigit t = some (digits, c :: rest) → rest ⊆ t := by
    intro digits c hread
    obtain ⟨-, hback, -⟩ := Text.run?_eq_some_iff.1 hread
    have hsub := (List.dropWhile_sublist Text.isDecimalDigit (l := t)).subset
    rw [hback] at hsub
    exact fun d hd => hsub (List.mem_cons_of_mem c hd)
  unfold afterMarker? at h
  split at h
  · obtain rfl := Option.some.inj h
    exact hrun ‹_›
  · obtain rfl := Option.some.inj h
    exact hrun ‹_›
  · cases h
  · split at h
    · split at h
      · obtain rfl := Option.some.inj h
        exact List.subset_cons_self ..
      · cases h
    · cases h

/-- Without a marker no part of a word is dropped. -/
theorem itemBody?_eq_none {t : Text} (h : ∀ c ∈ t, isBlank c = false) : itemBody? t = none := by
  refine Option.eq_none_iff_forall_not_mem.2 fun body hbody => ?_
  obtain ⟨rest, hafter, hbody⟩ := Option.bind_eq_some_iff.1 hbody
  obtain ⟨⟨gap, _⟩, hrun, -⟩ := Option.bind_eq_some_iff.1 hbody
  obtain ⟨hgap, -, hne⟩ := Text.run?_eq_some_iff.1 hrun
  obtain ⟨c, gap, rfl⟩ := List.exists_cons_of_ne_nil hne
  -- the blank behind the marker would be one of the word
  have hblank : isBlank c = true := by
    have hall := List.all_takeWhile (p := isBlank) (l := rest)
    rw [hgap, List.all_cons, Bool.and_eq_true] at hall
    exact hall.1
  have hmem : c ∈ rest := by
    have hsub := (List.takeWhile_sublist isBlank (l := rest)).subset
    rw [hgap] at hsub
    exact hsub (List.mem_cons_self ..)
  have hword : c ∈ t :=
    (List.dropWhile_sublist isBlank).subset (afterMarker?_subset hafter hmem)
  rw [h c hword] at hblank
  cases hblank

/-- The word on a line. -/
theorem getD_itemBody? (hmarker : IsMarker marker) {word : Text} (hne : word ≠ [])
    (hword : ∀ c ∈ word, isBlank c = false) :
    (itemBody? (marker ++ word)).getD (marker ++ word) = word := by
  by_cases hempty : marker = []
  · rw [hempty, List.nil_append, itemBody?_eq_none hword]
    rfl
  · obtain ⟨c, t, rfl⟩ := List.exists_cons_of_ne_nil hne
    rw [itemBody?_append hmarker hempty (hword c (List.mem_cons_self ..))]
    rfl

theorem pathQuotes_cases (hquote : quote ∈ pathQuotes) :
    quote = [] ∨ ∃ c, (c = '"' ∨ c = '\'' ∨ c = '\x60') ∧ quote = [c] := by
  simp only [pathQuotes, List.mem_cons, List.not_mem_nil, or_false] at hquote
  rcases hquote with rfl | rfl | rfl | rfl
  · exact .inl rfl
  · exact .inr ⟨'"', .inl rfl, rfl⟩
  · exact .inr ⟨'\'', .inr (.inl rfl), rfl⟩
  · exact .inr ⟨'\x60', .inr (.inr rfl), rfl⟩

/-- The comma goes, and nothing else. -/
theorem dropEndWhile_word (hquote : quote ∈ pathQuotes) (hcomma : comma ∈ [[], [',']])
    (hpath : IsBarePath path) :
    Text.dropEndWhile (· == ',') (quote ++ (path ++ (quote ++ comma))) = quote ++ (path ++ quote) := by
  have hquotes : ∀ q ∈ pathQuotes, ',' ∉ q := by decide
  have hmem : ',' ∉ quote ++ (path ++ quote) := by
    have hnot : ',' ∉ path := hpath.notMem (by decide)
    simp [hquotes quote hquote, hnot]
  have hne : quote ++ (path ++ quote) ≠ [] := by simp [hpath.ne_nil]
  obtain ⟨front, last, hlast⟩ := (List.eq_nil_or_concat _).resolve_left hne
  rw [List.concat_eq_append] at hlast
  have hend : (last == ',') = false := by
    rw [beq_eq_false_iff_ne]
    rintro rfl
    exact hmem (by simp [hlast])
  have hcommas : Text.dropEndWhile (· == ',') comma = [] := by
    revert comma
    decide
  have hsplit : quote ++ (path ++ (quote ++ comma)) = front ++ last :: comma :=
    calc quote ++ (path ++ (quote ++ comma)) = (quote ++ (path ++ quote)) ++ comma := by simp
      _ = front ++ last :: comma := by simp [hlast]
  rw [hsplit, Text.dropEndWhile_append_cons (p := (· == ',')) hend, hcommas, hlast]

/-- The only name in quotes that stands in a quoted path is the path. -/
theorem eq_of_quoted_infix {name : Text} (hname : '"' ∉ name) (hpath : '"' ∉ path)
    (hquote : quote ∈ pathQuotes) (h : '"' :: (name ++ ['"']) <:+: quote ++ (path ++ quote)) :
    path = name := by
  -- the name has two quotes, which the path has not
  have hcount : path.count '"' = 0 := List.count_eq_zero.2 hpath
  obtain ⟨front, back, hinfix⟩ := h
  have hquotes := congrArg (List.count '"') hinfix
  simp only [List.count_append, List.count_cons, List.count_nil, beq_self_eq_true, if_true,
    hcount] at hquotes
  rcases pathQuotes_cases hquote with rfl | ⟨c, rfl | rfl | rfl, rfl⟩
  · rw [List.count_nil] at hquotes
    omega
  · -- the two quotes are those of the path
    have hone : List.count '"' ['"'] = 1 := by decide
    rw [hone] at hquotes
    have hfront : '"' ∉ front := List.count_eq_zero.1 (by omega)
    simp only [List.append_assoc, List.cons_append, List.nil_append] at hinfix
    have hopen := Text.cutFirst?_append (List.not_mem_nil : '"' ∉ []) (path ++ ['"'])
    have hcut := congrArg (Text.cutFirst? '"') hinfix
    rw [Text.cutFirst?_append hfront, ← List.nil_append ('"' :: (path ++ ['"'])), hopen] at hcut
    obtain ⟨-, hrest⟩ := Prod.mk.inj (Option.some.inj hcut)
    have hcut := congrArg (Text.cutFirst? '"') hrest
    rw [Text.cutFirst?_append hname, Text.cutFirst?_append hpath] at hcut
    exact (Prod.mk.inj (Option.some.inj hcut)).1.symm
  · have hzero : List.count '"' ['\''] = 0 := by decide
    omega
  · have hzero : List.count '"' ['\x60'] = 0 := by decide
    omega

/-- A kind has no quotes, so it would stand between them. -/
theorem hasInfix_kind (hquote : quote ∈ pathQuotes) (hpath : IsBarePath path) :
    ∀ word ∈ [RequestKind.file.wireName, RequestKind.listing.wireName],
      Text.hasInfix word (quote ++ (path ++ quote)) = false := by
  have hkinds : ∀ word ∈ [RequestKind.file.wireName, RequestKind.listing.wireName], word ≠ [] ∧
      Text.hasInfix word [] = false ∧ '"' ∉ word ∧ '\'' ∉ word ∧ '\x60' ∉ word := by decide
  intro word hword
  obtain ⟨hne, hnil, hdouble, hsingle, htick⟩ := hkinds word hword
  rcases pathQuotes_cases hquote with rfl | ⟨c, hc, rfl⟩
  · simpa using hpath.no_kind word hword
  · have hmem : c ∉ word := by
      rcases hc with rfl | rfl | rfl
      · exact hdouble
      · exact hsingle
      · exact htick
    have hopen := Text.hasInfix_append_cons hne hmem [] (path ++ [c])
    rw [List.nil_append] at hopen
    rw [List.singleton_append, hopen, Text.hasInfix_append_cons hne hmem, hnil,
      hpath.no_kind word hword]
    rfl

/-- A name has its quotes, so it would be the path. -/
theorem hasInfix_name (hquote : quote ∈ pathQuotes) (hpath : IsBarePath path) :
    ∀ name ∈ ["path".toList, "type".toList],
      Text.hasInfix ('"' :: (name ++ ['"'])) (quote ++ (path ++ quote)) = false := by
  have hnames : ∀ name ∈ ["path".toList, "type".toList], '"' ∉ name := by decide
  intro name hname
  rw [Bool.eq_false_iff, ne_eq, Text.hasInfix_iff]
  intro hinfix
  have heq := eq_of_quoted_infix (hnames name hname) (hpath.notMem (by decide)) hquote hinfix
  exact hpath.not_name (heq ▸ hname)

/-- A bare path between quotes is no fragment of JSON. -/
theorem hasInfix_fragment (hquote : quote ∈ pathQuotes) (hpath : IsBarePath path) :
    ∀ word ∈ fragmentWords, Text.hasInfix word (quote ++ (path ++ quote)) = false := by
  have hkind := hasInfix_kind hquote hpath
  have hname := hasInfix_name hquote hpath
  intro word hword
  simp only [fragmentWords, List.mem_cons, List.not_mem_nil, or_false] at hword
  rcases hword with rfl | rfl | rfl | rfl
  · exact hname _ (.tail _ (.head _))
  · exact hname _ (.head _)
  · exact hkind _ (.head _)
  · exact hkind _ (.tail _ (.head _))

theorem looksAhead_quotedPart : Text.LooksAhead quotedPart := fun _ _ _ => rfl

/-- The path is found between its quotes, or is the line without quotes. -/
theorem matchFirst?_quotedPart (hquote : quote ∈ pathQuotes) (hpath : IsBarePath path) :
    Text.matchFirst? quotedPart (quote ++ (path ++ quote))
      = if quote = [] then none else some path := by
  rcases pathQuotes_cases hquote with rfl | ⟨c, hc, rfl⟩
  · -- no character of the path opens a quoted text
    have hskip : matchAll quotedPart (path ++ []) = matchAll quotedPart [] := by
      refine Text.matchAll_skip looksAhead_quotedPart [] fun c hc u => if_neg ?_
      rintro (rfl | rfl | rfl)
      all_goals exact hpath.notMem (by decide) hc
    rw [Text.matchFirst?, List.nil_append, hskip]
    rfl
  · -- the path goes up to the closing quote, as it has none itself
    have hmem : c ∉ path := by
      rcases hc with rfl | rfl | rfl
      all_goals exact hpath.notMem (by decide)
    have hread : quotedPart none (([c] ++ (path ++ [c])) ++ []) = some (path, []) := by
      rw [List.append_nil]
      exact (if_pos hc).trans (Text.upTo?_eq_some_iff.2 ⟨rfl, hpath.ne_nil, hmem⟩)
    have hne : [c] ++ (path ++ [c]) ≠ [] := by simp
    have hfound := Text.matchAll_append looksAhead_quotedPart hne hread
    rw [List.append_nil] at hfound
    rw [Text.matchFirst?, hfound]
    rfl

/-- A bare path between quotes is no punctuation and opens no object. -/
theorem isPath_word (hquote : quote ∈ pathQuotes) (hpath : IsBarePath path) :
    ((quote ++ (path ++ quote)).isEmpty || decide ((quote ++ (path ++ quote)).head? = some '\x7b') ||
      (quote ++ (path ++ quote)).all isPunctuation) = false := by
  have hchars := mem_word hquote (List.mem_cons_self ..) hpath.bare
  rw [List.append_nil] at hchars
  obtain ⟨c, hc⟩ := List.exists_mem_of_ne_nil _ hpath.ne_nil
  have hmem : c ∈ quote ++ (path ++ quote) := by simp [hc]
  have hempty : (quote ++ (path ++ quote)).isEmpty = false :=
    List.isEmpty_eq_false_iff.2 (List.ne_nil_of_mem hmem)
  have hhead : (quote ++ (path ++ quote)).head? ≠ some '\x7b' := by
    intro hhead
    rcases hchars _ (List.mem_of_head? hhead) with h | h
    · revert h
      decide
    · revert h
      decide
  have hpunctuation : (quote ++ (path ++ quote)).all isPunctuation = false := by
    refine List.all_eq_false.2 ⟨c, hmem, fun hpunctuation => ?_⟩
    simp only [isPunctuation, Bool.or_eq_true, beq_iff_eq, or_assoc] at hpunctuation
    rcases hpunctuation with rfl | rfl | rfl | rfl | rfl | rfl | rfl
    all_goals exact hpath.notMem (by decide) hc
  rw [hempty, decide_eq_false hhead, hpunctuation]
  rfl

end Line

theorem IsBarePath.nonBlank? {path : Text} (h : IsBarePath path) : path.nonBlank? = some path :=
  nonBlank?_eq_some h.ne_nil
    (Text.trim_of_isBlank fun c hc => isBlank_of_isBareChar (h.bare c hc))

/-- Each line asks for its path. -/
theorem ofLine?_of_spellsLine {line path : Text} (h : SpellsLine line path)
    (hpath : IsBarePath path) : ofLine? line = some (file path) := by
  obtain ⟨hmarker, hquote, hcomma⟩ := h
  rename_i marker quote comma
  have hword := isBlank_of_mem_word hquote hcomma hpath.bare
  have hblank := isBlank_of_mem_word hquote (List.mem_cons_self ..) hpath.bare
  rw [List.append_nil] at hblank
  have hfragment : (fragmentWords.any fun word => Text.hasInfix word (quote ++ (path ++ quote)))
      = false :=
    List.any_eq_false.2 fun word hmem => by simp [hasInfix_fragment hquote hpath word hmem]
  rw [ofLine?, getD_itemBody? hmarker (by simp [hpath.ne_nil]) hword, Text.trim_of_isBlank hword,
    dropEndWhile_word hquote hcomma hpath, Text.trim_of_isBlank hblank,
    matchFirst?_quotedPart hquote hpath, isPath_word hquote hpath, hfragment]
  by_cases hnone : quote = []
  · have hall : path.all isBareChar = true := List.all_eq_true.2 hpath.bare
    simp [hnone, hall]
  · simp [hnone, hpath.nonBlank?]

/-! ## Lists of files -/

section Lists

variable {α β γ : Type} {R : α → β → Prop} {as : List α} {bs : List β}

theorem exists_of_forall₂ (h : List.Forall₂ R as bs) {a : α} (ha : a ∈ as) : ∃ b ∈ bs, R a b := by
  induction h with
  | nil => cases ha
  | cons hR _ ih =>
    rcases List.mem_cons.1 ha with rfl | ha
    · exact ⟨_, List.mem_cons_self .., hR⟩
    · obtain ⟨b, hb, hab⟩ := ih ha
      exact ⟨b, List.mem_cons_of_mem _ hb, hab⟩

/-- What is read from the items is what they stand for. -/
theorem filterMap_eq_map (h : List.Forall₂ R as bs) {f : α → Option γ} {g : β → γ}
    (hread : ∀ a, ∀ b ∈ bs, R a b → f a = some (g b)) : as.filterMap f = bs.map g := by
  induction h with
  | nil => rfl
  | cons hR _ ih =>
    have hrest := ih fun a b hb => hread a b (List.mem_cons_of_mem _ hb)
    rw [List.filterMap_cons_some (hread _ _ (List.mem_cons_self ..) hR), hrest, List.map_cons]

end Lists

section Files

variable {t : Text} {paths : List Text}

/-- A line of a path has no other characters than those of paths and a few around them. -/
theorem mem_of_spellsLine {line path : Text} (h : SpellsLine line path) (hpath : IsBarePath path) :
    ∀ c ∈ line, isBareChar c = true ∨ c ∈ aroundPath ++ [' ', ')', '*', '\u2022'] := by
  obtain ⟨hmarker, hquote, hcomma⟩ := h
  rw [List.forall_mem_append]
  refine ⟨?_, fun c hc => (mem_word hquote hcomma hpath.bare c hc).imp_right
    (List.mem_append_left _)⟩
  -- what is left is the marker
  cases hmarker with
  | none => exact List.forall_mem_nil _
  | @bullet b hb =>
    have hbullets : ∀ c ∈ ['-', '*', '\u2022'], isBareChar c = true ∨
        c ∈ aroundPath ++ [' ', ')', '*', '\u2022'] := Text.forall_mem_of_all (by decide)
    exact List.forall_mem_cons.2 ⟨hbullets b (mem_of_isBullet hb),
      Text.forall_mem_of_all (by decide)⟩
  | number _ hdigits hb =>
    rw [List.forall_mem_append]
    refine ⟨fun d hd => .inl ?_, ?_⟩
    · simp [isBareChar, Char.isAlphanum, hdigits d hd]
    · rcases hb with rfl | rfl
      · exact Text.forall_mem_of_all (by decide)
      · exact Text.forall_mem_of_all (by decide)

/-- A text of such lines has no brackets and no colons. -/
theorem notMem_of_spellsLines (h : List.Forall₂ SpellsLine t.lines paths)
    (hpaths : ∀ path ∈ paths, IsBarePath path) : ∀ c ∈ ['[', '\x7b', ':'], c ∉ t := by
  have hother : ∀ c ∈ ['[', '\x7b', ':'], c ≠ Text.cr ∧ c ≠ lf ∧
      ¬ (isBareChar c = true ∨ c ∈ aroundPath ++ [' ', ')', '*', '\u2022']) :=
    Text.forall_mem_of_all (by decide)
  intro c hc hmem
  obtain ⟨hcr, hlf, hchar⟩ := hother c hc
  obtain ⟨line, hline, hmem⟩ := (Text.mem_iff_mem_lines hcr hlf).1 hmem
  obtain ⟨path, hpath, hspells⟩ := exists_of_forall₂ h hline
  exact hchar (mem_of_spellsLine hspells (hpaths path hpath) c hmem)

/-- A line is read without its marker as one word. -/
theorem isBlank_of_itemBody? {line path body : Text} (h : SpellsLine line path)
    (hpath : IsBarePath path) (hbody : itemBody? line = some body) :
    ∀ c ∈ body, isBlank c = false := by
  obtain ⟨hmarker, hquote, hcomma⟩ := h
  have hword := isBlank_of_mem_word hquote hcomma hpath.bare
  have hread := getD_itemBody? hmarker (by simp [hpath.ne_nil]) hword
  rw [hbody, Option.getD_some] at hread
  rwa [hread]

/-- Lines of paths are no prose. -/
theorem ofProse?_of_spellsLines (h : List.Forall₂ SpellsLine t.lines paths)
    (hpaths : ∀ path ∈ paths, IsBarePath path) : ofProse? t = none := by
  refine if_neg ?_
  rw [Bool.not_eq_true, List.any_eq_false]
  intro body hbody
  obtain ⟨line, hline, hbody⟩ := List.mem_filterMap.1 hbody
  obtain ⟨path, hpath, hspells⟩ := exists_of_forall₂ h hline
  have hword := isBlank_of_itemBody? hspells (hpaths path hpath) hbody
  rw [Bool.not_eq_true, List.any_eq_false, Text.trim_of_isBlank hword]
  exact fun c hc => by simp [hword c hc]

/-- There is a path on the first line. -/
theorem isEmpty_trim_of_spellsLines {path : Text}
    (h : List.Forall₂ SpellsLine t.lines (path :: paths)) (hpath : IsBarePath path) :
    t.trim.isEmpty = false := by
  obtain ⟨line, rest, hspells, -, hlines⟩ := List.forall₂_cons_right_iff.1 h
  obtain ⟨c, hc⟩ := List.exists_mem_of_ne_nil _ hpath.ne_nil
  have hblank := isBlank_of_isBareChar (hpath.bare c hc)
  have hcr : c ≠ Text.cr := by
    rintro rfl
    exact hpath.notMem (by decide) hc
  have hlf : c ≠ lf := by
    rintro rfl
    exact hpath.notMem (by decide) hc
  have hline : c ∈ line := by
    obtain ⟨-, -, -⟩ := hspells
    simp [hc]
  have hmem : c ∈ t := (Text.mem_iff_mem_lines hcr hlf).2 ⟨line, by simp [hlines], hline⟩
  exact List.isEmpty_eq_false_iff.2 (List.ne_nil_of_mem (Text.mem_trim hblank hmem))

/-- Lines of paths are read line by line. -/
theorem resolve_of_spellsLines (h : List.Forall₂ SpellsLine t.lines paths) (hne : paths ≠ [])
    (hpaths : ∀ path ∈ paths, IsBarePath path) : resolve t = paths.map file := by
  have hnotMem := notMem_of_spellsLines h hpaths
  -- without brackets there is no JSON, and without colons there are no members
  have hbracket : hasBracket t = false := by
    refine List.any_eq_false.2 fun c hc hopen => ?_
    obtain rfl | rfl : c = '[' ∨ c = '\x7b' := by simpa [Nesting.isOpener] using hopen
    · exact hnotMem _ (.head _) hc
    · exact hnotMem _ (.tail _ (.head _)) hc
  have hmembers : ofMembers? t = none := by
    unfold ofMembers?
    dsimp only
    rw [matchAll_member_of_notMem areWords_pathNames (hnotMem _ (.tail _ (.tail _ (.head _))))]
    rfl
  have hread : t.lines.filterMap ofLine? = paths.map file :=
    filterMap_eq_map h fun line path hpath hspells => ofLine?_of_spellsLine hspells (hpaths path hpath)
  obtain ⟨path, rest, rfl⟩ := List.exists_cons_of_ne_nil hne
  have hlines : ofLines? t = some ((path :: rest).map file) := by
    unfold ofLines?
    rw [hread]
    rfl
  have hempty := isEmpty_trim_of_spellsLines h (hpaths path (List.mem_cons_self ..))
  rw [resolve_of_lines hempty hbracket (ofProse?_of_spellsLines h hpaths) hmembers, hlines]
  rfl

/-! ## JSON of files -/

/-- A value that asks for a file is read as that request. -/
theorem ofJson?_of_namesFile {v : Json} {path : Text} (h : NamesFile v path) (hpath : IsBarePath path) :
    ofJson? v = some (file path) := by
  cases h with
  | text => rw [ofJson?, hpath.nonBlank?]; rfl
  | @object members _ hlookup htype =>
    have hkind : (((members.lookup "type".toList).bind Json.text?).bind RequestKind.ofWire?).getD .file
        = .file := by
      cases hfound : members.lookup "type".toList with
      | none => rfl
      | some v =>
        rw [htype v hfound]
        decide
    rw [ofJson?, hlookup]
    simp only [Option.bind_some, Json.text?, hpath.nonBlank?, hkind]
    rfl

theorem listOfJson_of_namesFiles {vs : List Json} (h : List.Forall₂ NamesFile vs paths)
    (hpaths : ∀ path ∈ paths, IsBarePath path) : listOfJson (.array vs) = paths.map file :=
  filterMap_eq_map h fun _ path hpath hnames => ofJson?_of_namesFile hnames (hpaths path hpath)

/-! ## Written arrays -/

/-- A file as a JSON value: its path, or an object with the path and maybe the type of files. -/
inductive WritesFile : Json → Text → Prop
  | text {path : Text} : WritesFile (.text path) path
  | object {name path : Text} : name ∈ pathNames → WritesFile (.object [(name, .text path)]) path
  | typed {name path : Text} : name ∈ pathNames →
      WritesFile (.object [("type".toList, .text RequestKind.file.wireName), (name, .text path)]) path

theorem WritesFile.namesFile {v : Json} {path : Text} (h : WritesFile v path) :
    NamesFile v.asRead path := by
  have hnone : ∀ v : Json, v ∈ (none : Option Json) → v = .text RequestKind.file.wireName :=
    fun _ hv => nomatch hv
  have hfile : ∀ v ∈ some (Json.text RequestKind.file.wireName),
      v = .text RequestKind.file.wireName := fun _ hv => (Option.some.inj hv).symm
  cases h with
  | text => exact .text
  | object hname =>
    simp only [pathNames, List.mem_cons, List.not_mem_nil, or_false] at hname
    rcases hname with rfl | rfl
    · exact .object rfl hnone
    · exact .object rfl hnone
  | typed hname =>
    simp only [pathNames, List.mem_cons, List.not_mem_nil, or_false] at hname
    rcases hname with rfl | rfl
    · exact .object rfl hfile
    · exact .object rfl hfile

/-- The texts in the JSON form of a file are its path and words. -/
theorem WritesFile.plain {v : Json} {path : Text} (h : WritesFile v path)
    (hpath : path.plainQuotes = path) : ∀ t ∈ v.texts, t.plainQuotes = t := by
  have hnames : ∀ name ∈ pathNames, name.plainQuotes = name := by decide
  have hwords : ∀ t ∈ ["type".toList, RequestKind.file.wireName], Text.plainQuotes t = t := by decide
  simp only [List.forall_mem_cons] at hwords
  cases h with
  | text => simpa [Json.texts] using hpath
  | object hname =>
    simp only [Json.texts, Json.textsOfMembers, List.append_nil, List.forall_mem_cons]
    exact ⟨hnames _ hname, hpath, List.forall_mem_nil _⟩
  | typed hname =>
    simp only [Json.texts, Json.textsOfMembers, List.cons_append, List.nil_append, List.append_nil,
      List.forall_mem_cons]
    exact ⟨hwords.1, hwords.2.1, hnames _ hname, hpath, List.forall_mem_nil _⟩

/-- The JSON array of the files is one of the ways to spell them. -/
theorem spellsFiles_compact {vs : List Json} (h : List.Forall₂ WritesFile vs paths)
    (hpaths : ∀ path ∈ paths, IsBarePath path) : SpellsFiles paths (Json.array vs).compact := by
  -- what the readers of JSON ask of the array, item by item
  have hitems : Json.AreReadable vs (Json.maxDepth - 1) ∧
      List.Forall₂ NamesFile (Json.itemsAsRead vs) paths ∧
      ∀ t ∈ Json.textsOfItems vs, t.plainQuotes = t := by
    induction h with
    | nil => exact ⟨trivial, .nil, List.forall_mem_nil _⟩
    | cons hv _ ih =>
      rw [List.forall_mem_cons] at hpaths
      obtain ⟨hreadable, hnames, hplain⟩ := ih hpaths.2
      have hdepth : 0 < Json.maxDepth - 1 := by decide
      refine ⟨⟨?_, hreadable⟩, .cons hv.namesFile hnames,
        List.forall_mem_append.2 ⟨hv.plain hpaths.1.plain, hplain⟩⟩
      cases hv with
      | text => trivial
      | object => exact ⟨hdepth, trivial, trivial⟩
      | typed => exact ⟨hdepth, trivial, trivial, trivial⟩
  obtain ⟨hreadable, hnames, hplain⟩ := hitems
  have harray : (Json.array vs).IsReadable Json.maxDepth := ⟨by decide, hreadable⟩
  exact .list (Json.read?_compact harray) (Json.plainQuotes_compact harray hplain) hnames

/-! ## Reading -/

/-- All spellings of a list of files ask for those files, in their order. -/
theorem resolve_of_spellsFiles (hne : paths ≠ []) (hpaths : ∀ path ∈ paths, IsBarePath path)
    (h : SpellsFiles paths t) : resolve t = paths.map file := by
  have hmap : paths.map file ≠ [] := by simp [hne]
  cases h with
  | @list _ vs hread hplain hvs =>
    have hembeds := Json.embeds_of_read? hread
    have hlist := listOfJson_of_namesFiles hvs hpaths
    have hresolve := resolve_of_recover? (hembeds.any_isOpener rfl) (hembeds.recover? rfl hplain)
      (by rwa [hlist])
    rw [hresolve, hlist]
  | @fenced l t rest vs hl hfence hread hplain hvs =>
    have hembeds := Json.embeds_of_read? hread
    have hlist := listOfJson_of_namesFiles hvs hpaths
    have hbracket : hasBracket (l ++ lf :: (t ++ lf :: rest)) = true := by
      have hany := hembeds.any_isOpener rfl
      simp [hasBracket, hany]
    have hresolve := resolve_of_recover? hbracket (hembeds.recover?_fenced rfl hplain hl hfence rest)
      (by rwa [hlist])
    rw [hresolve, hlist]
  | lines hlines => exact resolve_of_spellsLines hlines hne hpaths

end Files

/-- Files of which one is named twice, and one is spelled like a marker. -/
def samplePaths : List Text := ["src/a.go".toList, "1.".toList, "src/a.go".toList]

theorem resolve_of_spellsFiles_sample : samplePaths ≠ [] ∧ (∀ path ∈ samplePaths, IsBarePath path) ∧
    SpellsFiles samplePaths "- \"src/a.go\",\n2) 1.\n'src/a.go'".toList ∧
    resolve "- \"src/a.go\",\n2) 1.\n'src/a.go'".toList = samplePaths.map file := by
  have hne : samplePaths ≠ [] := by decide
  have hpaths : ∀ path ∈ samplePaths, IsBarePath path := by decide
  have hfirst : SpellsLine "- \"src/a.go\",".toList "src/a.go".toList :=
    @SpellsLine.mk ['-', ' '] ['"'] [','] "src/a.go".toList (.bullet rfl) (by decide) (by decide)
  have hdigits : ∀ d ∈ ['2'], d.isDigit = true := List.forall_mem_singleton.2 rfl
  have hnumber : IsMarker (['2'] ++ [')', ' ']) := .number (by decide) hdigits (.inr rfl)
  have hsecond : SpellsLine "2) 1.".toList "1.".toList :=
    @SpellsLine.mk _ [] [] "1.".toList hnumber (by decide) (by decide)
  have hthird : SpellsLine "'src/a.go'".toList "src/a.go".toList :=
    @SpellsLine.mk [] ['\''] [] "src/a.go".toList .none (by decide) (by decide)
  have hlines : Text.lines "- \"src/a.go\",\n2) 1.\n'src/a.go'".toList
      = ["- \"src/a.go\",".toList, "2) 1.".toList, "'src/a.go'".toList] := by decide
  have hspells : SpellsFiles samplePaths "- \"src/a.go\",\n2) 1.\n'src/a.go'".toList :=
    .lines (hlines ▸ .cons hfirst (.cons hsecond (.cons hthird .nil)))
  exact ⟨hne, hpaths, hspells, resolve_of_spellsFiles hne hpaths hspells⟩

end Request

end Mend
