import Mend.Proofs.Turn.RequestedPaths
import Mend.Request.Plan

/-!
# Paths that a plan names

The requests that a plan stands for (`Request.ofPlan_coversPlan`). Each of them asks for a file by a
part of the plan, trimmed and not empty, and no path is asked for twice. And no plain reference is
missed: a directory, a slash, a path below it and a source extension that stand between blanks are
asked for as a whole.

What is found is a part of the plan because each of the four recognisers reads what it answers
(`Request.ReadsPart`). That nothing is missed rests on three facts about the recogniser of bare
paths:

- it reads no blank, so the search starts again behind each of them;
- of the extensions at a point only one ends at the edge of a word, so one that another one starts
  with is told from it (`Request.extensionAt?_append`);
- from the end of the path downwards the first point is the one before the extension
  (`Request.longestPath?_append`).
-/

namespace Mend

/-- A part of a text with blanks or the ends of the text around it. -/
inductive Text.IsDelimited (w : Text) : Text → Prop
  | mk {front back : Text} : (∀ c ∈ front.getLast?, isBlank c = true) →
      (∀ c ∈ back.head?, isBlank c = true) → IsDelimited w (front ++ (w ++ back))

namespace Request

open Text (isBlank isWord matchAll matchAllFrom)

/-- A plain reference to a source file: a directory, a slash, what stands below it, and a point with a
source extension. -/
inductive IsReference : Text → Prop
  | mk {c : Char} {first more ext : Text} : isWord c = true → (∀ d ∈ first, isPartChar d = true) →
      (∀ d ∈ more, isPathChar d = true) → ext ∈ sourceExtensions →
      IsReference (c :: first ++ '/' :: (more ++ '.' :: ext))

/-- The requests are files of a plan, each once, and no plain reference of the plan is missing. -/
structure CoversPlan (plan : Text) (rs : List Request) : Prop where
  kind : ∀ r ∈ rs, r.kind = .file
  tidy : ∀ r ∈ rs, IsTidy r.path
  part : ∀ r ∈ rs, r.path <:+: plan
  nodup : (rs.map path).Nodup
  reference : ∀ w, w.IsDelimited plan → IsReference w → file w ∈ rs

/-! ## Classes of characters -/

/-- The code points of blanks. -/
def blankCodes : List Nat :=
  [0x9, 0xA, 0xB, 0xC, 0xD, 0x20, 0x85, 0xA0, 0x1680, 0x2000, 0x2001, 0x2002, 0x2003, 0x2004, 0x2005,
   0x2006, 0x2007, 0x2008, 0x2009, 0x200A, 0x2028, 0x2029, 0x202F, 0x205F, 0x3000]

theorem toNat_mem_blankCodes {c : Char} (h : isBlank c = true) : c.toNat ∈ blankCodes := by
  rw [isBlank] at h
  simp only [Bool.or_eq_true, Bool.and_eq_true, decide_eq_true_eq, beq_iff_eq] at h
  simp only [blankCodes, List.mem_cons, List.not_mem_nil, or_false]
  omega

/-- No blank is a character of a word. -/
theorem isWord_of_isBlank {c : Char} (h : isBlank c = true) : isWord c = false := by
  have hcodes : ∀ n ∈ blankCodes, CodeRanges.holds Text.wordRanges n = false := by decide +kernel
  exact hcodes _ (toNat_mem_blankCodes h)

theorem isPathChar_of_isPartChar {c : Char} (h : isPartChar c = true) : isPathChar c = true := by
  simp [isPathChar, h]

theorem isPathChar_of_isWord {c : Char} (h : isWord c = true) : isPathChar c = true :=
  isPathChar_of_isPartChar (by simp [isPartChar, h])

/-- No blank is a character of a path. -/
theorem isPathChar_of_isBlank {c : Char} (h : isBlank c = true) : isPathChar c = false := by
  have hne : ∀ d : Char, isBlank d = false → c ≠ d := by
    rintro d hd rfl
    cases h.symm.trans hd
  simp [isPathChar, isPartChar, isWord_of_isBlank h, hne '-' (by decide), hne '/' (by decide),
    hne '.' (by decide)]

theorem isBlank_of_isPathChar {c : Char} (h : isPathChar c = true) : isBlank c = false := by
  cases hblank : isBlank c with
  | false => rfl
  | true => cases h.symm.trans (isPathChar_of_isBlank hblank)

/-- A blank or the end of the text ends a class without blanks. -/
theorem any_eq_false_of_isBlank {q : Char → Bool} (hq : ∀ c, isBlank c = true → q c = false)
    {o : Option Char} (h : ∀ c ∈ o, isBlank c = true) : o.any q = false := by
  cases o with
  | none => rfl
  | some c => exact hq c (h c rfl)

/-- Extensions are words. -/
theorem isWord_of_mem_sourceExtensions {ext : Text} (h : ext ∈ sourceExtensions) :
    ext ≠ [] ∧ ∀ c ∈ ext, isWord c = true := by
  have hall : ∀ ext ∈ sourceExtensions, ext ≠ [] ∧ ext.all isWord = true := by decide +kernel
  exact ⟨(hall ext h).1, List.all_eq_true.1 (hall ext h).2⟩

/-- A run of a class ends where nothing of the class follows. -/
theorem takeWhile_append_of_head? {q : Char → Bool} {w back : Text} (hw : ∀ c ∈ w, q c = true)
    (hback : back.head?.any q = false) : (w ++ back).takeWhile q = w := by
  rw [List.takeWhile_append_of_pos hw]
  cases back with
  | nil => simp
  | cons c back => rw [List.takeWhile_cons_of_neg (by simpa using hback), List.append_nil]

/-! ## Parts of the plan -/

/-- What the recogniser answers is a part of the text that it looks at. -/
def ReadsPart (p : Text.Recogniser Text) : Prop :=
  ∀ before t w after, p before t = some (w, after) → w <:+: t

theorem ReadsPart.infix_of_mem {p : Text.Recogniser Text} (hp : ReadsPart p) {t w : Text}
    (h : w ∈ matchAll p t) : w <:+: t := by
  obtain ⟨before, u, after, hu, hread⟩ := Text.exists_of_mem_matchAll h
  exact (hp before u w after hread).trans hu.isInfix

theorem suffix_of_afterWord? {word t rest : Text} (h : afterWord? word t = some rest) :
    rest <:+ t := by
  induction word generalizing t with
  | nil =>
    rw [afterWord?] at h
    cases h
    exact List.suffix_refl _
  | cons w word ih =>
    cases t with
    | nil => cases h
    | cons c t =>
      rw [afterWord?] at h
      split at h
      · exact (ih h).trans (List.suffix_cons c t)
      · cases h

theorem suffix_of_run? {q : Char → Bool} {t run rest : Text} (h : Text.run? q t = some (run, rest)) :
    rest <:+ t :=
  ⟨run, (Text.eq_append_of_run? h).1.symm⟩

theorem suffix_of_dropChar? {c : Char} {t rest : Text} (h : Text.dropChar? c t = some rest) :
    rest <:+ t :=
  ⟨[c], (Text.dropChar?_eq_some_iff.1 h).symm⟩

/-- A character of a class at the start of a text. -/
theorem suffix_of_head? {q : Char → Bool} {t rest : Text} {c : Char}
    (h : (t.head?.bind fun c => if q c = true then some (c, t.drop 1) else none) = some (c, rest)) :
    rest <:+ t := by
  cases t with
  | nil => cases h
  | cons d t =>
    simp only [List.head?_cons, Option.bind_some] at h
    split at h
    · cases h
      exact List.suffix_cons ..
    · cases h

theorem infix_of_between? {q : Char → Bool} {t content rest : Text}
    (h : between? q t = some (content, rest)) : content <:+: t := by
  obtain ⟨⟨c, u⟩, hopen, h⟩ := Option.bind_eq_some_iff.1 h
  obtain ⟨⟨run, v⟩, hrun, h⟩ := Option.bind_eq_some_iff.1 h
  dsimp only at h
  split at h
  · cases h
  · cases h
    have hcontent : content <+: u := ⟨_, (Text.eq_append_of_run? hrun).1.symm⟩
    exact hcontent.isInfix.trans (suffix_of_head? hopen).isInfix

theorem infix_of_pathMember? {t content rest : Text} (h : pathMember? t = some (content, rest)) :
    content <:+: t := by
  obtain ⟨⟨c₁, t₁⟩, hopen, h⟩ := Option.bind_eq_some_iff.1 h
  obtain ⟨t₂, hname, h⟩ := Option.bind_eq_some_iff.1 h
  obtain ⟨⟨c₂, t₃⟩, hclose, h⟩ := Option.bind_eq_some_iff.1 h
  obtain ⟨t₄, hcolon, h⟩ := Option.bind_eq_some_iff.1 h
  have hvalue : Text.trimStart t₄ <:+ Text.trimStart t₃ :=
    (List.dropWhile_suffix isBlank).trans (suffix_of_dropChar? hcolon)
  have hmember : Text.trimStart t₃ <:+ t :=
    (List.dropWhile_suffix isBlank).trans <| (suffix_of_head? hclose).trans <|
      (suffix_of_afterWord? hname).trans (suffix_of_head? hopen)
  exact (infix_of_between? h).trans (hvalue.trans hmember).isInfix

theorem infix_of_firstPathMember? {t content rest : Text}
    (h : firstPathMember? t = some (content, rest)) : content <:+: t := by
  induction t with
  | nil => cases h
  | cons c t ih =>
    rw [firstPathMember?] at h
    split at h
    · rename_i found hfound
      cases h
      exact infix_of_pathMember? hfound
    · split at h
      · cases h
      · exact (ih h).trans (List.suffix_cons c t).isInfix

theorem readsPart_reviewed : ReadsPart reviewed := by
  intro before t w after h
  obtain ⟨t₁, hword, h⟩ := Option.bind_eq_some_iff.1 h
  obtain ⟨⟨gap, t₂⟩, hgap, h⟩ := Option.bind_eq_some_iff.1 h
  have hsuffix : t₂ <:+ t := (suffix_of_run? hgap).trans (suffix_of_afterWord? hword)
  exact (infix_of_between? h).trans hsuffix.isInfix

theorem readsPart_required : ReadsPart required := by
  intro before t w after h
  obtain ⟨t₁, hword, h⟩ := Option.bind_eq_some_iff.1 h
  exact (infix_of_firstPathMember? h).trans (suffix_of_afterWord? hword).isInfix

theorem readsPart_ticked : ReadsPart ticked := by
  intro before t w after h
  obtain ⟨t₁, hopen, h⟩ := Option.bind_eq_some_iff.1 h
  obtain ⟨⟨name, t₂⟩, hname, h⟩ := Option.bind_eq_some_iff.1 h
  obtain ⟨t₃, -, h⟩ := Option.bind_eq_some_iff.1 h
  split at h
  · cases h
    have hstarts : w <+: t₁ := ⟨t₂, (Text.eq_append_of_run? hname).1.symm⟩
    exact hstarts.isInfix.trans (suffix_of_dropChar? hopen).isInfix
  · cases h

/-- What is read as an extension is a source extension at the start of the text. -/
theorem exists_of_extensionAt? {t ext : Text} (h : extensionAt? t = some ext) :
    ext ∈ sourceExtensions ∧ ∃ rest, t = ext ++ rest ∧ isWordEdge ext.getLast? rest.head? = true := by
  refine ⟨List.mem_of_find?_eq_some h, ?_⟩
  have hext := List.find?_some h
  split at hext
  · rename_i rest hdrop
    exact ⟨rest, Text.eq_append_of_dropPrefix? hdrop, hext⟩
  · cases hext

/-- What is read as a path is the text up to a point, and an extension behind it. -/
theorem exists_of_longestPath? {t more after : Text} {len : Nat}
    (h : longestPath? t len = some (more, after)) : t = more ++ after ∧
      ∃ n < len, ∃ ext ∈ sourceExtensions, more = t.take n ++ '.' :: ext := by
  induction len with
  | zero => cases h
  | succ len ih =>
    have hbelow (h : longestPath? t len = some (more, after)) : t = more ++ after ∧
        ∃ n < len + 1, ∃ ext ∈ sourceExtensions, more = t.take n ++ '.' :: ext := by
      obtain ⟨happend, n, hn, hext⟩ := ih h
      exact ⟨happend, n, Nat.lt_succ_of_lt hn, hext⟩
    rw [longestPath?] at h
    split at h
    · rename_i rest hdrop
      split at h
      · rename_i ext hext
        cases h
        obtain ⟨hmem, rest, rfl, -⟩ := exists_of_extensionAt? hext
        refine ⟨?_, len, Nat.lt_succ_self len, ext, hmem, rfl⟩
        calc t = t.take len ++ '.' :: (ext ++ rest) := by rw [← hdrop, List.take_append_drop]
          _ = t.take len ++ '.' :: ext ++ (ext ++ rest).drop ext.length := by simp
      · exact hbelow h
    · exact hbelow h

/-- What is read as a bare path stands at the start of the text and has characters of paths only. -/
theorem exists_of_bare {before : Option Char} {t w after : Text}
    (h : bare before t = some (w, after)) :
    t = w ++ after ∧ w ≠ [] ∧ ∀ c ∈ w, isPathChar c = true := by
  rw [bare] at h
  split at h
  · cases h
  obtain ⟨⟨first, t₁⟩, hfirst, h⟩ := Option.bind_eq_some_iff.1 h
  obtain ⟨t₂, hslash, h⟩ := Option.bind_eq_some_iff.1 h
  obtain ⟨⟨more, rest⟩, hmore, h⟩ := Option.bind_eq_some_iff.1 h
  cases h
  obtain ⟨ht, hchars⟩ := Text.eq_append_of_run? hfirst
  obtain ⟨ht₂, n, hn, ext, hext, hmoreEq⟩ := exists_of_longestPath? hmore
  refine ⟨?_, by simp, fun c hc => ?_⟩
  · rw [ht, Text.dropChar?_eq_some_iff.1 hslash, ht₂]
    simp
  · rcases List.mem_append.1 hc with hc | hc
    · exact isPathChar_of_isPartChar (hchars c hc)
    rcases List.mem_cons.1 hc with rfl | hc
    · decide
    rw [hmoreEq, List.mem_append, List.mem_cons] at hc
    rcases hc with hc | rfl | hc
    · -- the front ends within the run of characters of paths
      have hstarts : t₂.take n <+: t₂.takeWhile isPathChar :=
        List.prefix_of_prefix_length_le (List.take_prefix n t₂) (List.takeWhile_prefix _)
          (Nat.le_trans (List.length_take_le n t₂) (Nat.le_of_lt hn))
      exact List.all_eq_true.1 List.all_takeWhile c (hstarts.subset hc)
    · decide
    · exact isPathChar_of_isWord ((isWord_of_mem_sourceExtensions hext).2 c hc)

theorem readsPart_bare : ReadsPart bare := by
  intro before t w after h
  exact ⟨[], after, (exists_of_bare h).1.symm⟩

theorem infix_of_nonBlank? {t path : Text} (h : t.nonBlank? = some path) : path <:+: t := by
  rw [Text.nonBlank?] at h
  split at h
  · cases h
  · cases h
    obtain ⟨front, back, ht, -, -⟩ := Text.exists_trim t
    exact ⟨front, back, by rw [List.append_assoc]; exact ht.symm⟩

theorem infix_of_mem_pathsOfPlan {plan path : Text} (h : path ∈ pathsOfPlan plan) :
    path <:+: plan := by
  obtain ⟨w, hw, hpath⟩ := List.mem_filterMap.1 h
  refine (infix_of_nonBlank? hpath).trans ?_
  rw [List.mem_append, List.mem_append, List.mem_append] at hw
  rcases hw with ((hw | hw) | hw) | hw
  · exact readsPart_reviewed.infix_of_mem hw
  · exact readsPart_required.infix_of_mem hw
  · exact readsPart_ticked.infix_of_mem (List.mem_filter.1 hw).1
  · exact readsPart_bare.infix_of_mem hw

/-! ## Plain references -/

/-- An extension ends at the edge of a word when no character of a word follows. -/
theorem isWordEdge_extension {ext : Text} (hext : ext ∈ sourceExtensions) (after : Option Char) :
    isWordEdge ext.getLast? after = true ↔ after.any isWord = false := by
  obtain ⟨hne, hword⟩ := isWord_of_mem_sourceExtensions hext
  have hlast : ext.getLast?.any isWord = true := by
    rw [List.getLast?_eq_some_getLast hne]
    exact hword _ (List.getLast_mem hne)
  simp [isWordEdge, hlast]

/-- Where an extension ends at the edge of a word, it is the one that is found, whichever others it
starts with. -/
theorem extensionAt?_append {ext back : Text} (hext : ext ∈ sourceExtensions)
    (hback : back.head?.any isWord = false) : extensionAt? (ext ++ back) = some ext := by
  have hword {ext : Text} (hext : ext ∈ sourceExtensions) := (isWord_of_mem_sourceExtensions hext).2
  cases hfound : extensionAt? (ext ++ back) with
  | none =>
    have hnone := List.find?_eq_none.1 hfound ext hext
    simp [(isWordEdge_extension hext _).2 hback] at hnone
  | some found =>
    -- both are the run of word characters that the text starts with
    obtain ⟨hmem, rest, happend, hedge⟩ := exists_of_extensionAt? hfound
    have hrest := (isWordEdge_extension hmem _).1 hedge
    have hrun := takeWhile_append_of_head? (hword hext) hback
    rw [happend, takeWhile_append_of_head? (hword hmem) hrest] at hrun
    rw [hrun]

/-- The search for the end of a path goes on at a character that is no point. -/
theorem longestPath?_succ {t : Text} {len : Nat} (h : t[len]? ≠ some '.') :
    longestPath? t (len + 1) = longestPath? t len := by
  rw [longestPath?]
  split
  · rename_i rest hdrop
    refine absurd ?_ h
    rw [← List.head?_drop, hdrop]
    rfl
  · rfl

/-- A path is read up to its last extension, whichever points and slashes it has. -/
theorem longestPath?_append {more ext back : Text} (hext : ext ∈ sourceExtensions)
    (hback : back.head?.any isWord = false) {len : Nat} (hlow : more.length < len)
    (hhigh : len ≤ more.length + 1 + ext.length) :
    longestPath? (more ++ '.' :: (ext ++ back)) len = some (more ++ '.' :: ext, back) := by
  induction len with
  | zero => omega
  | succ len ih =>
    by_cases hpoint : len = more.length
    · have hdrop : (more ++ '.' :: (ext ++ back)).drop len = '.' :: (ext ++ back) := by
        rw [hpoint, List.drop_left]
      have htake : (more ++ '.' :: (ext ++ back)).take len = more := by rw [hpoint, List.take_left]
      rw [longestPath?, hdrop, htake]
      simp [extensionAt?_append hext hback]
    · -- behind the point stand characters of the extension
      have hchar : (more ++ '.' :: (ext ++ back))[len]? ≠ some '.' := by
        intro hdot
        obtain ⟨k, rfl⟩ := Nat.exists_eq_add_of_lt (show more.length < len by omega)
        rw [List.getElem?_append_right (by omega),
          show more.length + k + 1 - more.length = k + 1 by omega, List.getElem?_cons_succ,
          List.getElem?_append_left (by omega)] at hdot
        have hword := (isWord_of_mem_sourceExtensions hext).2 _ (List.mem_of_getElem? hdot)
        revert hword
        decide +kernel
      rw [longestPath?_succ hchar]
      exact ih (by omega) (by omega)

theorem isPathChar_of_isReference {w : Text} (h : IsReference w) : ∀ c ∈ w, isPathChar c = true := by
  obtain @⟨c, first, more, ext, hc, hfirst, hmore, hext⟩ := h
  intro d hd
  simp only [List.cons_append, List.mem_cons, List.mem_append] at hd
  rcases hd with rfl | hd | rfl | hd | rfl | hd
  · exact isPathChar_of_isWord hc
  · exact isPathChar_of_isPartChar (hfirst d hd)
  · decide
  · exact hmore d hd
  · decide
  · exact isPathChar_of_isWord ((isWord_of_mem_sourceExtensions hext).2 d hd)

theorem ne_nil_of_isReference {w : Text} (h : IsReference w) : w ≠ [] := by
  obtain ⟨-, -, -, -⟩ := h
  exact List.cons_ne_nil _ _

/-- A reference with blanks or nothing around it is read as a bare path. -/
theorem bare_append {before : Option Char} (hbefore : ∀ c ∈ before, isBlank c = true) {w : Text}
    (hw : IsReference w) {back : Text} (hback : ∀ c ∈ back.head?, isBlank c = true) :
    bare before (w ++ back) = some (w, back) := by
  have hpath := isPathChar_of_isReference hw
  have hend : back.head?.any isPathChar = false :=
    any_eq_false_of_isBlank (fun _ => isPathChar_of_isBlank) hback
  have hword : back.head?.any isWord = false :=
    any_eq_false_of_isBlank (fun _ => isWord_of_isBlank) hback
  have hword' : before.any isWord = false :=
    any_eq_false_of_isBlank (fun _ => isWord_of_isBlank) hbefore
  obtain @⟨c, first, more, ext, hc, hfirst, hmore, hext⟩ := hw
  have hedge : isWordEdge before (c :: first ++ '/' :: (more ++ '.' :: ext) ++ back).head? = true := by
    simp [isWordEdge, hword', hc]
  have hfirst' : ∀ d ∈ c :: first, isPartChar d = true :=
    List.forall_mem_cons.2 ⟨by simp [isPartChar, hc], hfirst⟩
  have hslash : isPartChar '/' = false := by decide +kernel
  have hrun : Text.run? isPartChar (c :: first ++ '/' :: (more ++ '.' :: (ext ++ back)))
      = some (c :: first, '/' :: (more ++ '.' :: (ext ++ back))) := by
    rw [Text.run?_eq_some_iff, List.takeWhile_append_of_pos hfirst',
      List.dropWhile_append_of_pos hfirst']
    simp [hslash]
  have hlen : ((more ++ '.' :: (ext ++ back)).takeWhile isPathChar).length
      = more.length + 1 + ext.length := by
    have htake : ((more ++ '.' :: ext) ++ back).takeWhile isPathChar = more ++ '.' :: ext := by
      refine takeWhile_append_of_head? (fun d hd => hpath d ?_) hend
      simp only [List.cons_append, List.mem_cons, List.mem_append] at hd ⊢
      exact .inr (.inr (.inr hd))
    rw [List.append_assoc, List.cons_append] at htake
    rw [htake, List.length_append, List.length_cons]
    omega
  have hlongest : longestPath? (more ++ '.' :: (ext ++ back)) (more.length + 1 + ext.length)
      = some (more ++ '.' :: ext, back) :=
    longestPath?_append hext hword (by omega) (Nat.le_refl _)
  rw [bare, hedge]
  simp only [List.append_assoc, List.cons_append] at hrun ⊢
  simp [hrun, Text.dropChar?, hlen, hlongest]

/-- No bare path goes over a blank. -/
theorem passesNo_bare {c : Char} (h : isBlank c = true) : Text.PassesNo bare c := by
  intro before t w after hread
  obtain ⟨ht, hne, hpath⟩ := exists_of_bare hread
  exact ⟨w, ht, hne, fun hc => Bool.noConfusion (h.symm.trans (isBlank_of_isPathChar (hpath c hc)))⟩

/-- A reference with blanks around it is among the bare paths. -/
theorem mem_matchAll_bare {w plan : Text} (hdelimited : w.IsDelimited plan) (hw : IsReference w) :
    w ∈ matchAll bare plan := by
  have hstart {before : Option Char} (hbefore : ∀ c ∈ before, isBlank c = true) {back : Text}
      (hback : ∀ c ∈ back.head?, isBlank c = true) : w ∈ matchAllFrom bare before 0 (w ++ back) := by
    have hread := bare_append hbefore hw hback
    obtain ⟨c, u, hcu⟩ := List.exists_cons_of_ne_nil (ne_nil_of_isReference hw)
    rw [hcu, List.cons_append] at hread ⊢
    rw [matchAllFrom, hread]
    exact List.mem_cons_self
  obtain @⟨front, back, hfront, hback⟩ := hdelimited
  rcases List.eq_nil_or_concat front with rfl | ⟨front, c, rfl⟩
  · exact hstart (by simp) hback
  · -- the search starts again behind the blank in front of the reference
    rw [List.concat_eq_append] at hfront ⊢
    have hc : isBlank c = true := hfront c (by simp)
    obtain ⟨as, has⟩ := Text.matchAllFrom_append_cons (passesNo_bare hc) (w ++ back)
      (Nat.zero_le front.length) none
    rw [matchAll, List.append_assoc, List.singleton_append, has]
    exact List.mem_append_right _ (hstart (by simpa using hc) hback)

theorem mem_pathsOfPlan {w plan : Text} (hdelimited : w.IsDelimited plan) (hw : IsReference w) :
    w ∈ pathsOfPlan plan := by
  have hblank : ∀ c ∈ w, isBlank c = false :=
    fun c hc => isBlank_of_isPathChar (isPathChar_of_isReference hw c hc)
  exact List.mem_filterMap.2 ⟨w, List.mem_append_right _ (mem_matchAll_bare hdelimited hw),
    nonBlank?_eq_some (ne_nil_of_isReference hw) (Text.trim_of_isBlank hblank)⟩

/-! ## Requests -/

theorem file_mem_ofPlan {plan path : Text} (h : path ∈ pathsOfPlan plan) :
    file path ∈ ofPlan plan := by
  have hmem : path ∈ (ofPlan plan).map Request.path := by
    rw [ofPlan, mem_path_distinct, List.map_map]
    exact List.mem_map.2 ⟨path, h, rfl⟩
  obtain ⟨r, hr, rfl⟩ := List.mem_map.1 hmem
  obtain ⟨path, -, rfl⟩ := exists_of_mem_ofPlan hr
  exact hr

/-- The requests of a plan are sound, and complete for plain references. -/
theorem ofPlan_coversPlan (plan : Text) : CoversPlan plan (ofPlan plan) where
  kind r hr := by
    obtain ⟨path, -, rfl⟩ := exists_of_mem_ofPlan hr
    rfl
  tidy _ hr := isTidy_of_mem_ofPlan hr
  part r hr := by
    obtain ⟨path, hpath, rfl⟩ := exists_of_mem_ofPlan hr
    exact infix_of_mem_pathsOfPlan hpath
  nodup := distinct_nodup _
  reference _ hdelimited hw := file_mem_ofPlan (mem_pathsOfPlan hdelimited hw)

/-- Extensions that other ones start with, and a path with points and slashes of its own. -/
example : ofPlan "Move lib/main.cpp to\nlib/v1.2/page.html and web/data.json".toList =
    ["lib/main.cpp".toList, "lib/v1.2/page.html".toList, "web/data.json".toList].map file := by
  decide +kernel

end Request

end Mend
