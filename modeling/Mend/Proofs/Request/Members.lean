import Mend.Proofs.Text.Matches
import Mend.Request.Resolve

/-!
# Member pairs in broken JSON

What the recogniser of member pairs reads, said without it (`Request.SpellsMember`): a quoted name, a
colon and a quoted text that is not empty, with blanks around the colon
(`Request.member_eq_some_iff`). So a quoted word that is no name, or that no colon follows, is passed
(`Request.matchAll_member_word`), and so is what holds fewer quotes than a member has
(`Request.matchAll_member_of_count`).
-/

namespace Mend

namespace Request

open Text (isBlank matchAll)

/-- Names that are words of letters. -/
def AreWords (names : List Text) : Prop := ∀ name ∈ names, name ≠ [] ∧ ∀ c ∈ name, c.isAlpha = true

theorem areWords_of_all {names : List Text}
    (h : ∀ name ∈ names, name ≠ [] ∧ name.all Char.isAlpha = true) : AreWords names :=
  fun name hname => ⟨(h name hname).1, List.all_eq_true.1 (h name hname).2⟩

theorem areWords_pathNames : AreWords pathNames := areWords_of_all (by decide)

theorem areWords_kindNames : AreWords kindNames := areWords_of_all (by decide)

/-- The text is a member with one of the names and the content. -/
inductive SpellsMember (names : List Text) : Text → Text → Prop
  | mk {name gap gap' content : Text} : name ∈ names → (∀ c ∈ gap, isBlank c = true) →
      (∀ c ∈ gap', isBlank c = true) → content ≠ [] → '"' ∉ content →
      SpellsMember names
        ('"' :: (name ++ '"' :: (gap ++ ':' :: (gap' ++ '"' :: (content ++ ['"']))))) content

theorem looksAhead_member (names : List Text) : Text.LooksAhead (member names) :=
  fun _ _ _ => rfl

section Members

variable {names : List Text}

theorem AreWords.quote_notMem (h : AreWords names) {name : Text} (hname : name ∈ names) :
    '"' ∉ name := by
  intro hmem
  have halpha := (h name hname).2 _ hmem
  revert halpha
  decide

theorem trimStart_append_cons {gap : Text} (hgap : ∀ c ∈ gap, isBlank c = true) {c : Char}
    (hc : isBlank c = false) (t : Text) : Text.trimStart (gap ++ c :: t) = c :: t := by
  rw [Text.trimStart, List.dropWhile_append_of_pos hgap, List.dropWhile_cons_of_neg (by simp [hc])]

/-- A character behind blanks stands behind those that are skipped. -/
theorem exists_gap_of_trimStart {t u : Text} (h : t.trimStart = u) :
    ∃ gap, t = gap ++ u ∧ ∀ c ∈ gap, isBlank c = true :=
  ⟨t.takeWhile isBlank, by rw [← h]; exact List.takeWhile_append_dropWhile.symm,
    fun c hc => List.all_eq_true.1 List.all_takeWhile c hc⟩

/-- A quoted name is found at the start of a text. -/
theorem findSome?_name (h : AreWords names) {name : Text} (hname : name ∈ names) (t : Text) :
    (names.findSome? fun name' => Text.dropPrefix? ('"' :: name' ++ ['"']) ('"' :: (name ++ '"' :: t)))
      = some t := by
  have hsplit : ∀ name' u, '"' :: (name' ++ '"' :: u) = ('"' :: name' ++ ['"']) ++ u := by simp
  cases hfound : names.findSome? fun name' =>
      Text.dropPrefix? ('"' :: name' ++ ['"']) ('"' :: (name ++ '"' :: t)) with
  | none =>
    have hnone := List.findSome?_eq_none_iff.1 hfound name hname
    rw [hsplit, Text.dropPrefix?_append] at hnone
    cases hnone
  | some u =>
    -- a text is cut at its first quote in one way
    obtain ⟨name', hname', hprefix⟩ := List.exists_of_findSome?_eq_some hfound
    have htext := Text.eq_append_of_dropPrefix? hprefix
    rw [← hsplit] at htext
    have hcut := congrArg (Text.cutFirst? '"') (List.cons.inj htext).2
    rw [Text.cutFirst?_append (h.quote_notMem hname), Text.cutFirst?_append (h.quote_notMem hname')]
      at hcut
    rw [(Prod.mk.inj (Option.some.inj hcut)).2]

/-- What is read as a member is one. -/
theorem member_eq_some_iff (h : AreWords names) (before : Option Char) {t content rest : Text} :
    member names before t = some (content, rest) ↔
      ∃ w, t = w ++ rest ∧ SpellsMember names w content := by
  constructor
  · intro hread
    obtain ⟨t₁, hname, hread⟩ := Option.bind_eq_some_iff.1 hread
    obtain ⟨t₂, hcolon, hread⟩ := Option.bind_eq_some_iff.1 hread
    obtain ⟨t₃, hquote, hread⟩ := Option.bind_eq_some_iff.1 hread
    obtain ⟨name, hmem, hprefix⟩ := List.exists_of_findSome?_eq_some hname
    obtain ⟨rfl, hne, hcontent⟩ := Text.upTo?_eq_some_iff.1 hread
    obtain ⟨gap, rfl, hgap⟩ := exists_gap_of_trimStart (Text.dropChar?_eq_some_iff.1 hcolon)
    obtain ⟨gap', rfl, hgap'⟩ := exists_gap_of_trimStart (Text.dropChar?_eq_some_iff.1 hquote)
    refine ⟨_, ?_, .mk hmem hgap hgap' hne hcontent⟩
    rw [Text.eq_append_of_dropPrefix? hprefix]
    simp
  · rintro ⟨w, rfl, ⟨hmem, hgap, hgap', hne, hcontent⟩⟩
    rename_i name gap gap'
    have hcolon : isBlank ':' = false := by decide
    have hquote : isBlank '"' = false := by decide
    simp only [List.cons_append, List.append_assoc, List.nil_append]
    rw [member, findSome?_name h hmem]
    simp only [Option.bind_eq_bind, Option.bind_some, trimStart_append_cons hgap hcolon,
      trimStart_append_cons hgap' hquote, Text.dropChar?, if_true]
    exact Text.upTo?_eq_some_iff.2 ⟨rfl, hne, hcontent⟩

/-- What is read in a text is read in a longer one. -/
theorem member_eq_none_of_append (h : AreWords names) {t u : Text}
    (hnone : member names none (t ++ u) = none) : member names none t = none := by
  cases hread : member names none t with
  | none => rfl
  | some found =>
    obtain ⟨content, rest⟩ := found
    obtain ⟨w, rfl, hw⟩ := (member_eq_some_iff h none).1 hread
    have hlong := (member_eq_some_iff h none).2 ⟨w, List.append_assoc w rest u, hw⟩
    rw [hnone] at hlong
    cases hlong

/-- No member is read where none is spelled. -/
theorem member_eq_none (h : AreWords names) {t : Text}
    (hnone : ∀ w content, SpellsMember names w content → ¬ w <+: t) : member names none t = none := by
  refine Option.eq_none_iff_forall_not_mem.2 fun found hread => ?_
  obtain ⟨w, rfl, hw⟩ := (member_eq_some_iff h none).1 hread
  exact hnone w _ hw (List.prefix_append ..)

/-! ## Searching for members -/

/-- A member starts with a quote. -/
theorem member_cons_eq_none (h : AreWords names) {c : Char} (hc : c ≠ '"') (t : Text) :
    member names none (c :: t) = none := by
  refine member_eq_none h ?_
  rintro w content ⟨-, -, -, -, -⟩ hw
  exact hc (List.cons_prefix_cons.1 hw).1.symm

/-- Text without quotes is passed. -/
theorem matchAll_member_skip (h : AreWords names) {t : Text} (ht : '"' ∉ t) (rest : Text) :
    matchAll (member names) (t ++ rest) = matchAll (member names) rest :=
  Text.matchAll_skip (looksAhead_member names) rest fun _ hc =>
    member_cons_eq_none h fun heq => ht (heq ▸ hc)

theorem matchAll_member_cons (h : AreWords names) {c : Char} (hc : c ≠ '"') (t : Text) :
    matchAll (member names) (c :: t) = matchAll (member names) t :=
  Text.matchAll_cons (looksAhead_member names) (member_cons_eq_none h hc t)

/-- A quoted word is passed when it is no name or no colon follows, and no word follows either. -/
theorem matchAll_member_word (h : AreWords names) {word t : Text} (hquote : '"' ∉ word)
    (hend : ∀ c ∈ t.head?, c.isAlpha = false)
    (hword : word ∈ names → ∀ c ∈ t.head?, c ≠ ':' ∧ isBlank c = false) :
    matchAll (member names) ('"' :: (word ++ '"' :: t)) = matchAll (member names) t := by
  have hopen : member names none ('"' :: (word ++ '"' :: t)) = none := by
    refine member_eq_none h ?_
    rintro w content @⟨name, gap, gap', _, hmem, hgap, -, -, -⟩ ⟨rest, hw⟩
    simp only [List.cons_append, List.append_assoc, List.cons.injEq, true_and] at hw
    -- the word is the name, and what follows it is what follows the name
    have hcut := congrArg (Text.cutFirst? '"') hw
    rw [Text.cutFirst?_append hquote, Text.cutFirst?_append (h.quote_notMem hmem)] at hcut
    obtain ⟨rfl, rfl⟩ := Prod.mk.inj (Option.some.inj hcut)
    cases gap with
    | nil => exact (hword hmem ':' rfl).1 rfl
    | cons c gap =>
      have hblank := hgap c (List.mem_cons_self ..)
      rw [(hword hmem c rfl).2] at hblank
      cases hblank
  have hclose : member names none ('"' :: t) = none := by
    refine member_eq_none h ?_
    rintro w content @⟨name, gap, gap', _, hmem, -, -, -, -⟩ ⟨rest, hw⟩
    -- the name would start with a letter
    obtain ⟨hne, halpha⟩ := h name hmem
    obtain ⟨c, name, rfl⟩ := List.exists_cons_of_ne_nil hne
    simp only [List.cons_append, List.cons.injEq, true_and] at hw
    have hhead := hend c (by rw [← hw]; rfl)
    rw [halpha c (List.mem_cons_self ..)] at hhead
    cases hhead
  rw [Text.matchAll_cons (looksAhead_member names) hopen, matchAll_member_skip h hquote,
    Text.matchAll_cons (looksAhead_member names) hclose]

/-- A member is found, and the search goes on behind it. -/
theorem matchAll_member (h : AreWords names) {w content : Text} (hw : SpellsMember names w content)
    (rest : Text) : matchAll (member names) (w ++ rest) = content :: matchAll (member names) rest := by
  have hread : member names none (w ++ rest) = some (content, rest) :=
    (member_eq_some_iff h none).2 ⟨w, rfl, hw⟩
  refine Text.matchAll_append (looksAhead_member names) ?_ hread
  obtain ⟨-, -, -, -, -⟩ := hw
  exact List.cons_ne_nil _ _

/-- A member has four quotes. -/
theorem matchAll_member_of_count (h : AreWords names) {t : Text} (ht : t.count '"' < 4) :
    matchAll (member names) t = [] := by
  refine Text.matchAll_eq_nil (looksAhead_member names) fun u hu => member_eq_none h ?_
  rintro w content ⟨-, -, -, -, -⟩ hw
  have hle := (hw.isInfix.trans hu.isInfix).sublist.count_le '"'
  simp only [List.count_append, List.count_cons, beq_self_eq_true, if_true] at hle
  omega

/-- A member has a colon. -/
theorem matchAll_member_of_notMem (h : AreWords names) {t : Text} (ht : ':' ∉ t) :
    matchAll (member names) t = [] := by
  refine Text.matchAll_eq_nil (looksAhead_member names) fun u hu => member_eq_none h ?_
  rintro w content ⟨-, -, -, -, -⟩ hw
  exact ht ((hw.isInfix.trans hu.isInfix).subset (by simp))

end Members

end Request

end Mend
