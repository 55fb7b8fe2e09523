import Mend.Proofs.Json.Recovery
import Mend.Proofs.Text.Lines
import Mend.Tag

/-!
# Texts without delimiters

A text holds no delimiter when none is found in it (`TagLine.find?`). Such a text holds no
completion marker either (`TagLine.hasInfix_finMarker`, `TagLine.hasInfix_noChangesMarker`), and
writing it as JSON makes none (`TagLine.find?_compact`): a delimiter has neither quotes nor
backslashes in it, so it would have to lie inside one of the texts of the value.

A delimiter does not go over a character that neither a name nor the frame of a name has
(`TagLine.firstName?_append_cons`). So it lies on one line (`TagLine.find?_of_mem_splitOn`), and a
carriage return at the end of the line is no part of it (`TagLine.find?_dropCr`).
-/

namespace Mend

namespace Text

/-- A text holds what stands somewhere in it. -/
theorem hasInfix_iff {m t : Text} : hasInfix m t = true ↔ m <:+: t := by
  induction t with
  | nil => simp [hasInfix]
  | cons c t ih => rw [hasInfix, Bool.or_eq_true, List.isPrefixOf_iff_prefix, ih, List.infix_cons_iff]

/-! ## Parts between separators -/

/-- A text without the separator starts a longer one where it starts the part before the
separator. -/
theorem isPrefixOf_append_cons {m : Text} {sep : Char} (h : sep ∉ m) (a b : Text) :
    m.isPrefixOf (a ++ sep :: b) = m.isPrefixOf a := by
  induction m generalizing a with
  | nil => simp
  | cons c m ih =>
    rw [List.mem_cons, not_or] at h
    cases a with
    | nil => simp [List.isPrefixOf, Ne.symm h.1]
    | cons d a => simp only [List.cons_append, List.isPrefixOf, ih h.2]

/-- A text without the separator stands before it or after it. -/
theorem hasInfix_append_cons {m : Text} {sep : Char} (hne : m ≠ []) (h : sep ∉ m) (a b : Text) :
    hasInfix m (a ++ sep :: b) = (hasInfix m a || hasInfix m b) := by
  have hprefix := isPrefixOf_append_cons h
  induction a with
  | nil =>
    have hempty : m.isPrefixOf [] = false := by
      cases m with
      | nil => exact absurd rfl hne
      | cons c m => rfl
    have hhead := hprefix [] b
    rw [List.nil_append, hempty] at hhead
    simp [hasInfix, hhead, hne]
  | cons c a ih =>
    have hhead := hprefix (c :: a) b
    rw [List.cons_append] at hhead ⊢
    rw [hasInfix, hhead, ih, hasInfix, Bool.or_assoc]

/-- A text without the separator stands in one of the joined pieces. -/
theorem hasInfix_joinWith {m : Text} {sep : Char} (hne : m ≠ []) (h : sep ∉ m) (ls : List Text) :
    hasInfix m (joinWith [sep] ls) = ls.any (hasInfix m) := by
  induction ls with
  | nil => simp [joinWith, hasInfix, hne]
  | cons l ls ih =>
    cases ls with
    | nil => simp [joinWith]
    | cons k ls =>
      have hsplit := hasInfix_append_cons hne h l (joinWith [sep] (k :: ls))
      rw [joinWith_cons_cons, List.append_assoc, List.singleton_append, hsplit, ih]
      rfl

theorem hasInfix_joinWith_eq_false {m : Text} {sep : Char} (hne : m ≠ []) (h : sep ∉ m)
    {ls : List Text} (hls : ∀ l ∈ ls, hasInfix m l = false) :
    hasInfix m (joinWith [sep] ls) = false := by
  rw [hasInfix_joinWith hne h, List.any_eq_false]
  intro l hl
  rw [hls l hl]
  exact Bool.false_ne_true

end Text

namespace TagLine

/-! ## Markers -/

theorem find?_eq_none_iff {t : Text} : find? t = none ↔ firstName? t = none := by
  rw [find?, Option.map_eq_none_iff]

theorem firstName?_of_cons {c : Char} {t : Text} (h : firstName? (c :: t) = none) :
    nameAtStart? (c :: t) = none ∧ firstName? t = none := by
  rw [firstName?] at h
  cases hstart : nameAtStart? (c :: t) with
  | none =>
    rw [hstart] at h
    exact ⟨rfl, h⟩
  | some found =>
    rw [hstart] at h
    cases h

/-- A text without a delimiter does not hold a text that always starts one. -/
theorem hasInfix_eq_false {m : Text} (hm : ∀ tail, firstName? (m ++ tail) ≠ none) {t : Text}
    (h : firstName? t = none) : Text.hasInfix m t = false := by
  have hne : m ≠ [] := by
    rintro rfl
    exact hm [] rfl
  induction t with
  | nil => simpa [Text.hasInfix] using hne
  | cons c t ih =>
    have hprefix : m.isPrefixOf (c :: t) = false := by
      rw [Bool.eq_false_iff]
      intro hm'
      obtain ⟨tail, htail⟩ := List.isPrefixOf_iff_prefix.1 hm'
      exact hm tail (htail ▸ h)
    rw [Text.hasInfix, hprefix, ih (firstName?_of_cons h).2, Bool.or_self]

theorem firstName?_finMarker (tail : Text) :
    firstName? (Tag.finMarker ++ tail) = some ("Fin".toList, '%' :: tail) := rfl

theorem firstName?_noChangesMarker (tail : Text) :
    firstName? (Tag.noChangesMarker ++ tail) = some ("No_Changes_Needed".toList, tail) := rfl

theorem hasInfix_finMarker {t : Text} (h : find? t = none) :
    Text.hasInfix Tag.finMarker t = false := by
  refine hasInfix_eq_false (fun tail => ?_) (find?_eq_none_iff.1 h)
  rw [firstName?_finMarker]
  exact Option.some_ne_none _

theorem hasInfix_noChangesMarker {t : Text} (h : find? t = none) :
    Text.hasInfix Tag.noChangesMarker t = false := by
  refine hasInfix_eq_false (fun tail => ?_) (find?_eq_none_iff.1 h)
  rw [firstName?_noChangesMarker]
  exact Option.some_ne_none _

/-! ## Parts of a text -/

/-- Only a percent sign starts a delimiter. -/
theorem firstName?_cons {c : Char} (h : c ≠ '%') (t : Text) : firstName? (c :: t) = firstName? t := by
  have hstart : nameAtStart? (c :: t) = none := by
    have hprefix : ¬ opener <+: c :: t := by simp [opener, Ne.symm h]
    rw [nameAtStart?, Text.dropPrefix?_eq_none hprefix]
  rw [firstName?, hstart]

theorem firstName?_append {t : Text} (h : '%' ∉ t) (rest : Text) :
    firstName? (t ++ rest) = firstName? rest := by
  induction t with
  | nil => rfl
  | cons c t ih =>
    rw [List.mem_cons, not_or] at h
    rw [List.cons_append, firstName?_cons (Ne.symm h.1), ih h.2]

/-- A name ends at a character that no name has. -/
theorem nameTail?_cons {c : Char} (h : isNameChar c = false) (taken t : Text) :
    nameTail? taken (c :: t) = none := by
  have hcloser : closer.isPrefixOf (c :: t) = false := by
    rw [Bool.eq_false_iff]
    intro hm
    obtain ⟨tail, htail⟩ := List.isPrefixOf_iff_prefix.1 hm
    obtain ⟨rfl, -⟩ := List.cons.inj htail
    cases h
  rw [nameTail?, hcloser, h]
  rfl

/-- A delimiter starts with a percent sign. -/
theorem exists_cons_of_nameAtStart? {t : Text} {found : Text × Text}
    (h : nameAtStart? t = some found) : ∃ u, t = '%' :: u := by
  rw [nameAtStart?] at h
  split at h
  · rename_i hopener
    exact ⟨_, Text.eq_append_of_dropPrefix? hopener⟩
  · cases h

/-- A delimiter at the start of a text is the first one. -/
theorem firstName?_of_nameAtStart? {t : Text} {found : Text × Text}
    (h : nameAtStart? t = some found) : firstName? t = some found := by
  obtain ⟨u, rfl⟩ := exists_cons_of_nameAtStart? h
  rw [firstName?, h]

section Break

variable {x : Char} (hname : isNameChar x = false) (hpercent : x ≠ '%')

include hname hpercent

/-- A name does not go on behind a character that no name and no closer has. -/
theorem nameTail?_append_cons (taken t rest : Text) : nameTail? taken (t ++ x :: rest)
    = (nameTail? taken t).map fun found => (found.1, found.2 ++ x :: rest) := by
  induction t generalizing taken with
  | nil => exact nameTail?_cons hname taken rest
  | cons c t ih =>
    have hcloser : closer.isPrefixOf (c :: (t ++ x :: rest)) = closer.isPrefixOf (c :: t) := by
      cases t with
      | nil => simp [closer, List.isPrefixOf, hpercent.symm]
      | cons d t => simp [closer, List.isPrefixOf]
    rw [List.cons_append, nameTail?, hcloser, nameTail?]
    split
    · rename_i hclosed
      -- the closer has two characters, so what follows it starts inside of `t`
      cases t with
      | nil => simp [closer, List.isPrefixOf] at hclosed
      | cons d t => rfl
    split
    · exact ih (c :: taken)
    · rfl

theorem nameAtStart?_append_cons (t rest : Text) : nameAtStart? (t ++ x :: rest)
    = (nameAtStart? t).map fun found => (found.1, found.2 ++ x :: rest) := by
  have hunderscore : x ≠ '_' := by
    rintro rfl
    cases hname
  have halpha : x.isAlpha = false := by
    rw [Bool.eq_false_iff]
    intro halpha
    simp [isNameChar, Char.isAlphanum, halpha] at hname
  -- an opener and a letter stand in front of the character or not at all
  match t with
  | [] => simp [nameAtStart?, Text.dropPrefix?, opener, hpercent.symm]
  | [c] => simp [nameAtStart?, Text.dropPrefix?, opener, hunderscore.symm]
  | [c, d] =>
    by_cases hopener : '%' = c ∧ '_' = d
    · obtain ⟨rfl, rfl⟩ := hopener
      simp [nameAtStart?, Text.dropPrefix?, opener, halpha]
    · simp [nameAtStart?, Text.dropPrefix?, opener, hopener]
  | c :: d :: e :: t =>
    by_cases hopener : '%' = c ∧ '_' = d
    · obtain ⟨rfl, rfl⟩ := hopener
      cases hletter : e.isAlpha with
      | true =>
        simpa [nameAtStart?, Text.dropPrefix?, opener, hletter] using
          nameTail?_append_cons hname hpercent [e] t rest
      | false => simp [nameAtStart?, Text.dropPrefix?, opener, hletter]
    · simp [nameAtStart?, Text.dropPrefix?, opener, hopener]

/-- The first delimiter of a text stands before such a character or after it. -/
theorem firstName?_append_cons (t rest : Text) : firstName? (t ++ x :: rest)
    = ((firstName? t).map fun found => (found.1, found.2 ++ x :: rest)).or (firstName? rest) := by
  induction t with
  | nil => exact firstName?_cons hpercent rest
  | cons c t ih =>
    have hstart := nameAtStart?_append_cons hname hpercent (c :: t) rest
    rw [List.cons_append] at hstart ⊢
    rw [firstName?, hstart, ih, firstName?]
    cases nameAtStart? (c :: t) <;> rfl

end Break

/-- A carriage return at the end of a line is no part of a delimiter. -/
@[simp]
theorem find?_dropCr (l : Text) : find? (Text.dropCr l) = find? l := by
  by_cases hl : l.getLast? = some Text.cr
  · obtain ⟨front, rfl⟩ := List.getLast?_eq_some_iff.1 hl
    have hfirst := firstName?_append_cons (x := Text.cr) (by decide) (by decide) front []
    have hcr : ∀ c ∈ [Text.cr], Text.isBlank c = true := List.forall_mem_singleton.2 (by decide)
    rw [Text.dropCr, Text.dropSuffix_append, find?, find?, hfirst, firstName?, Option.or_none,
      Option.map_map]
    -- behind the delimiter it is a blank
    refine congrArg (Option.map · (firstName? front)) (funext fun found => ?_)
    simp [Text.trim_append_blanks hcr]
  · rw [Text.dropCr_eq_self hl]

/-- A text without a delimiter has none on its lines. -/
theorem find?_of_mem_splitOn {t l : Text} (h : find? t = none) (hl : l ∈ t.splitOn Text.lf) :
    find? l = none := by
  have hpieces : ∀ ls : List Text, firstName? (Text.joinWith [Text.lf] ls) = none →
      ∀ l ∈ ls, firstName? l = none := by
    intro ls
    induction ls with
    | nil => exact fun _ => List.forall_mem_nil _
    | cons l ls ih =>
      intro h
      cases ls with
      | nil => simpa [Text.joinWith] using h
      | cons m ls =>
        rw [Text.joinWith_cons_cons, List.append_assoc, List.singleton_append,
          firstName?_append_cons (by decide) (by decide), Option.or_eq_none_iff,
          Option.map_eq_none_iff] at h
        exact List.forall_mem_cons.2 ⟨h.1, ih h.2⟩
  rw [find?_eq_none_iff] at h ⊢
  exact hpieces _ (by rwa [Text.joinWith_splitOn]) l hl

/-! ## Texts as JSON -/

/-- What is written for a character is the character alone or starts with a backslash. -/
theorem writeChar_cases (c : Char) : Json.writeChar c = [c] ∨
    ∃ more, Json.writeChar c = '\\' :: more ∧ '%' ∉ more := by
  have hdigits : ∀ n < 0x20, '%' ∉ ['u', '0', '0', Json.hexChar (n / 16), Json.hexChar (n % 16)] := by
    decide
  unfold Json.writeChar
  -- seven escapes of one letter, the escape of four digits and the character itself
  iterate 7
    split
    · exact .inr ⟨_, rfl, by decide⟩
  split
  · rename_i hlow
    exact .inr ⟨_, rfl, hdigits c.toNat hlow⟩
  · exact .inl rfl

/-- A character of a written text that is no quote and no backslash stands in the text. -/
theorem exists_of_writeText_cons {t rest r : Text} {c : Char} (hquote : c ≠ '"') (hslash : c ≠ '\\')
    (h : t.flatMap Json.writeChar ++ '"' :: rest = c :: r) :
    ∃ t', t = c :: t' ∧ r = t'.flatMap Json.writeChar ++ '"' :: rest := by
  cases t with
  | nil => exact absurd (List.cons.inj h).1.symm hquote
  | cons d t =>
    rw [List.flatMap_cons] at h
    rcases writeChar_cases d with hd | ⟨more, hd, -⟩
    · rw [hd] at h
      obtain ⟨rfl, rfl⟩ := List.cons.inj h
      exact ⟨t, rfl, rfl⟩
    · rw [hd] at h
      exact absurd (List.cons.inj h).1.symm hslash

/-- A name that does not end in a text does not end when the text is written. -/
theorem nameTail?_writeText {taken t : Text} (h : nameTail? taken t = none) (rest : Text) :
    nameTail? taken (t.flatMap Json.writeChar ++ '"' :: rest) = none := by
  induction t generalizing taken with
  | nil => exact nameTail?_cons (by decide) taken rest
  | cons c t ih =>
    rw [List.flatMap_cons]
    rcases writeChar_cases c with hc | ⟨more, hc, -⟩
    · rw [hc, List.singleton_append, List.cons_append]
      cases hname : isNameChar c with
      | false => exact nameTail?_cons hname taken _
      | true =>
        rw [nameTail?, hname] at h
        have hcloser : closer.isPrefixOf (c :: t) = false := by
          rw [Bool.eq_false_iff]
          intro hm
          simp [hm] at h
        -- the second percent sign of a closer is not written as an escape, so it stands in the text
        have hcloser' : closer.isPrefixOf (c :: (t.flatMap Json.writeChar ++ '"' :: rest))
            = false := by
          rw [Bool.eq_false_iff]
          intro hm
          obtain ⟨tail, htail⟩ := List.isPrefixOf_iff_prefix.1 hm
          obtain ⟨rfl, hpercent⟩ := List.cons.inj htail
          obtain ⟨t', rfl, -⟩ := exists_of_writeText_cons (by decide) (by decide) hpercent.symm
          cases hcloser
        rw [hcloser] at h
        rw [nameTail?, hcloser', hname]
        exact ih (by simpa using h)
    · rw [hc, List.cons_append, List.cons_append]
      exact nameTail?_cons (by decide) taken _

/-- A delimiter at the start of a written text would be one of the text. -/
theorem nameAtStart?_writeText {t : Text} (h : nameAtStart? t = none) (rest : Text) :
    nameAtStart? (t.flatMap Json.writeChar ++ '"' :: rest) = none := by
  rw [nameAtStart?]
  split
  · rename_i c r hdrop
    split
    · rename_i halpha
      -- each character of an opening stands in the text itself, one after the other
      have htext := Text.eq_append_of_dropPrefix? hdrop
      obtain ⟨t₁, rfl, h₁⟩ := exists_of_writeText_cons (by decide) (by decide) htext
      obtain ⟨t₂, rfl, h₂⟩ := exists_of_writeText_cons (by decide) (by decide) h₁.symm
      have hquote : c ≠ '"' := by
        rintro rfl
        cases halpha
      have hslash : c ≠ '\\' := by
        rintro rfl
        cases halpha
      obtain ⟨t₃, rfl, rfl⟩ := exists_of_writeText_cons hquote hslash h₂.symm
      have hname : nameAtStart? ('%' :: '_' :: c :: t₃) = nameTail? [c] t₃ := by
        simp [nameAtStart?, Text.dropPrefix?, opener, halpha]
      exact nameTail?_writeText (hname ▸ h) rest
    · rfl
  · rfl

/-- A text without a delimiter is passed when it is written, up to its closing quote. -/
theorem firstName?_flatMap_writeChar {t : Text} (h : firstName? t = none) (rest : Text) :
    firstName? (t.flatMap Json.writeChar ++ '"' :: rest) = firstName? rest := by
  induction t with
  | nil => exact firstName?_cons (by decide) rest
  | cons c t ih =>
    obtain ⟨hstart, hrest⟩ := firstName?_of_cons h
    have hstart' := nameAtStart?_writeText hstart rest
    rw [List.flatMap_cons, List.append_assoc] at hstart' ⊢
    -- an escape has no percent sign; a character that is written alone starts no delimiter
    rcases writeChar_cases c with hc | ⟨more, hc, hmore⟩
    · rw [hc, List.singleton_append] at hstart' ⊢
      rw [firstName?, hstart']
      exact ih hrest
    · have hescape : '%' ∉ Json.writeChar c := by simpa [hc] using hmore
      rw [firstName?_append hescape, ih hrest]

theorem firstName?_writeText {t : Text} (h : firstName? t = none) (rest : Text) :
    firstName? (Json.writeText t ++ rest) = firstName? rest := by
  have hquote := firstName?_cons (c := '"') (by decide) (t.flatMap Json.writeChar ++ '"' :: rest)
  rw [firstName?_flatMap_writeChar h] at hquote
  simpa [Json.writeText] using hquote

/-- The compact form of a value whose texts have no delimiters has none. -/
theorem find?_compact {v : Json} {depth : Nat} (h : v.IsReadable depth)
    (htexts : ∀ t ∈ v.texts, find? t = none) : find? v.compact = none := by
  -- the property that joins is that a search goes over the text to what follows
  have hjoins : Json.JoinsTokens fun t => ∀ rest, firstName? (t ++ rest) = firstName? rest := by
    refine ⟨fun rest => rfl, fun ha hb rest => ?_, fun c hc rest => ?_⟩
    · rw [List.append_assoc, ha, hb]
    · have hpercent : ∀ c ∈ Json.tokenChars, c ≠ '%' := Text.forall_mem_of_all (by decide)
      exact firstName?_cons (hpercent c hc) rest
  have hcompact := Json.compact_induction hjoins h fun t ht rest =>
    firstName?_writeText (find?_eq_none_iff.1 (htexts t ht)) rest
  have hend := hcompact []
  rw [List.append_nil] at hend
  exact find?_eq_none_iff.2 hend

end TagLine

end Mend
