import Mend.Text.Basic

/-!
# Prefixes, lines and numbers

What the readers of patches and of replies rest on:

- `Text.dropPrefix?_append` and `Text.dropPrefix?_eq_none`: a prefix is taken off exactly where it
  stands;
- `Text.cutFirst?_append`: a text is cut at the first separator;
- `Text.splitOn_unlines`: splitting at line feeds gives back lines that were written one after the
  other, each with a line feed (`Text.unlines`);
- `Text.toNat?_ofNat`: the digits of a number read as that number.
-/

namespace Mend

namespace Text

/-- What is checked character by character holds of every character. -/
theorem forall_mem_of_all {P : Char → Prop} [DecidablePred P] {t : Text}
    (h : t.all (fun c => decide (P c)) = true) : ∀ c ∈ t, P c :=
  fun c hc => of_decide_eq_true (List.all_eq_true.1 h c hc)

/-! ## Prefixes and suffixes -/

@[simp]
theorem dropPrefix?_append (front t : Text) : dropPrefix? front (front ++ t) = some t := by
  simp [dropPrefix?]

theorem dropPrefix?_eq_none {front t : Text} (h : ¬ front <+: t) : dropPrefix? front t = none := by
  simpa [dropPrefix?] using h

/-- What is left when a prefix is taken off. -/
theorem eq_append_of_dropPrefix? {front t rest : Text} (h : dropPrefix? front t = some rest) :
    t = front ++ rest := by
  unfold dropPrefix? at h
  split at h
  · rename_i hp
    obtain ⟨tail, rfl⟩ := List.isPrefixOf_iff_prefix.1 hp
    simpa using h
  · simp at h

@[simp]
theorem dropSuffix_append (t back : Text) : dropSuffix back (t ++ back) = t := by
  simp [dropSuffix, dropSuffix?]

theorem dropSuffix_eq_self {back t : Text} (h : ¬ back <:+ t) : dropSuffix back t = t := by
  simp [dropSuffix, dropSuffix?, h]

/-- A suffix of the second part is taken off there. -/
theorem dropSuffix_append_of_ne_nil {c : Char} {u : Text} (h : u ≠ []) (t : Text) :
    dropSuffix [c] (t ++ u) = t ++ dropSuffix [c] u := by
  obtain ⟨front, last, rfl⟩ := (List.eq_nil_or_concat u).resolve_left h
  rw [List.concat_eq_append, ← List.append_assoc]
  by_cases hlast : last = c
  · rw [hlast, dropSuffix_append, dropSuffix_append]
  · have hnone : ∀ front, ¬ [c] <:+ front ++ [last] := by
      rintro front ⟨rest, heq⟩
      exact hlast (List.singleton_inj.1 (List.append_inj_right' heq rfl)).symm
    rw [dropSuffix_eq_self (hnone _), dropSuffix_eq_self (hnone _), List.append_assoc]

theorem dropSuffix_sublist (back t : Text) : (dropSuffix back t).Sublist t := by
  by_cases h : back <:+ t
  · obtain ⟨front, rfl⟩ := h
    rw [dropSuffix_append]
    exact List.sublist_append_left front back
  · simp [dropSuffix_eq_self h]

theorem dropCr_sublist (t : Text) : (dropCr t).Sublist t := dropSuffix_sublist [cr] t

/-- Only a carriage return at the end is dropped. -/
theorem dropCr_eq_self {t : Text} (h : t.getLast? ≠ some cr) : dropCr t = t := by
  apply dropSuffix_eq_self
  rintro ⟨front, rfl⟩
  simp at h

/-- A carriage return is dropped at the end only. -/
theorem dropCr_cons {c : Char} (h : c ≠ cr) (t : Text) : dropCr (c :: t) = c :: dropCr t := by
  by_cases ht : t = []
  · rw [ht, dropCr_eq_self (by simpa using h)]
    rfl
  · exact dropSuffix_append_of_ne_nil ht [c]

/-! ## Cutting at a character -/

/-- The parts of a cut, with the separator between them, make the text. -/
theorem eq_of_cutFirst? {sep : Char} {t a b : Text} (h : cutFirst? sep t = some (a, b)) :
    t = a ++ sep :: b := by
  unfold cutFirst? at h
  split at h
  · cases h
  · rename_i c rest hdrop
    obtain ⟨rfl, rfl⟩ : t.takeWhile (· != sep) = a ∧ rest = b := by simpa using h
    have hhead := List.head?_dropWhile_not (· != sep) t
    rw [hdrop] at hhead
    obtain rfl : c = sep := by simpa using hhead
    rw [← hdrop, List.takeWhile_append_dropWhile]

/-- A text is cut at the first separator. -/
theorem cutFirst?_append {sep : Char} {a : Text} (h : sep ∉ a) (b : Text) :
    cutFirst? sep (a ++ sep :: b) = some (a, b) := by
  have hall : ∀ c ∈ a, (c != sep) = true := by
    intro c hc
    have : c ≠ sep := fun heq => h (heq ▸ hc)
    simpa using this
  unfold cutFirst?
  rw [List.dropWhile_append_of_pos hall, List.takeWhile_append_of_pos hall]
  simp

/-- A text without the separator is not cut. -/
theorem cutFirst?_eq_none {sep : Char} {t : Text} (h : sep ∉ t) : cutFirst? sep t = none := by
  have hall : ∀ c ∈ t, (c != sep) = true := by
    intro c hc
    have : c ≠ sep := fun heq => h (heq ▸ hc)
    simpa using this
  have hdrop : t.dropWhile (· != sep) = [] := by
    have := @List.dropWhile_append_of_pos _ (· != sep) t [] hall
    simpa using this
  rw [cutFirst?, hdrop]

/-! ## Blanks -/

/-- The characters of ASCII between the space and the last control are no blanks. -/
theorem isBlank_of_graphic {c : Char} (hlow : 0x20 < c.toNat) (hhigh : c.toNat < 0x7F) :
    isBlank c = false := by
  unfold isBlank
  generalize c.toNat = n at *
  simp only [Bool.or_eq_false_iff, Bool.and_eq_false_iff, decide_eq_false_iff_not,
    beq_eq_false_iff_ne]
  omega

theorem isBlank_of_isDigit {c : Char} (h : c.isDigit = true) : isBlank c = false := by
  simp only [Char.isDigit, Bool.and_eq_true, decide_eq_true_eq, ge_iff_le] at h
  obtain ⟨hlow, hhigh⟩ := h
  change 48 ≤ c.val.toNat at hlow
  change c.val.toNat ≤ 57 at hhigh
  apply isBlank_of_graphic <;> unfold Char.toNat <;> omega

/-! ## Lines -/

/-- Lines written one after the other, each with a line feed at its end. -/
def unlines (ls : List Text) : Text := ls.flatMap (· ++ [lf])

@[simp]
theorem unlines_nil : unlines [] = [] := rfl

@[simp]
theorem unlines_cons (l : Text) (ls : List Text) : unlines (l :: ls) = l ++ lf :: unlines ls := by
  simp [unlines]

@[simp]
theorem unlines_append (ls ms : List Text) : unlines (ls ++ ms) = unlines ls ++ unlines ms := by
  simp [unlines]

theorem unlines_flatMap {α : Type} (f : α → List Text) (as : List α) :
    unlines (as.flatMap f) = as.flatMap fun a => unlines (f a) := by
  induction as with
  | nil => rfl
  | cons a as ih => simp [ih]

theorem joinWith_cons_cons (sep l m : Text) (ls : List Text) :
    joinWith sep (l :: m :: ls) = l ++ sep ++ joinWith sep (m :: ls) := by
  simp [joinWith, List.intercalate_cons_cons]

/-- Joined pieces end with the last one. -/
theorem joinWith_concat (sep : Text) (ls : List Text) (last : Text) :
    ∃ front, joinWith sep (ls ++ [last]) = front ++ last := by
  induction ls with
  | nil => exact ⟨[], by simp [joinWith]⟩
  | cons l ls ih =>
    obtain ⟨front, hfront⟩ := ih
    cases ls with
    | nil => exact ⟨l ++ sep, by simp [joinWith, List.intercalate_cons_cons]⟩
    | cons m ls =>
      refine ⟨l ++ sep ++ front, ?_⟩
      rw [List.cons_append, List.cons_append, joinWith_cons_cons, ← List.cons_append, hfront]
      simp

/-- Lines written with line feeds between them lack only the last line feed. -/
theorem unlines_eq_joinWith {ls : List Text} (h : ls ≠ []) :
    unlines ls = joinWith [lf] ls ++ [lf] := by
  induction ls with
  | nil => exact absurd rfl h
  | cons l ls ih =>
    cases ls with
    | nil => simp [joinWith]
    | cons m ls =>
      rw [unlines_cons, ih (by simp), joinWith_cons_cons]
      simp

/-- Pieces in front of others are joined first. -/
theorem joinWith_append (sep : Text) {ls ms : List Text} (hls : ls ≠ []) (hms : ms ≠ []) :
    joinWith sep (ls ++ ms) = joinWith sep ls ++ (sep ++ joinWith sep ms) := by
  induction ls with
  | nil => exact absurd rfl hls
  | cons l ls ih =>
    cases ls with
    | nil =>
      obtain ⟨m, ms, rfl⟩ := List.exists_cons_of_ne_nil hms
      rw [List.singleton_append, joinWith_cons_cons, List.append_assoc]
      simp [joinWith]
    | cons k ls =>
      rw [List.cons_append, List.cons_append, joinWith_cons_cons, ← List.cons_append,
        ih (List.cons_ne_nil k ls), joinWith_cons_cons]
      simp only [List.append_assoc]

/-- Joined pieces start with those in front. -/
theorem exists_joinWith_append (sep : Text) {ls : List Text} (hls : ls ≠ []) (ms : List Text) :
    ∃ rest, joinWith sep (ls ++ ms) = joinWith sep ls ++ rest := by
  by_cases hms : ms = []
  · exact ⟨[], by rw [hms, List.append_nil, List.append_nil]⟩
  · exact ⟨_, joinWith_append sep hls hms⟩

/-- Joined pieces start with the first one. -/
theorem exists_joinWith_cons (sep l : Text) (ls : List Text) :
    ∃ rest, joinWith sep (l :: ls) = l ++ rest := by
  obtain ⟨rest, hrest⟩ := exists_joinWith_append sep (List.cons_ne_nil l []) ls
  exact ⟨rest, by simpa [joinWith] using hrest⟩

/-- Lines in front of others have their line feeds. -/
theorem joinWith_append_cons (ls : List Text) (m : Text) (ms : List Text) :
    joinWith [lf] (ls ++ m :: ms) = unlines ls ++ joinWith [lf] (m :: ms) := by
  by_cases hls : ls = []
  · rw [hls]
    rfl
  · rw [joinWith_append [lf] hls (List.cons_ne_nil m ms), unlines_eq_joinWith hls, List.append_assoc]

/-- The last line stands behind the others. -/
theorem joinWith_append_singleton (ls : List Text) (l : Text) :
    joinWith [lf] (ls ++ [l]) = unlines ls ++ l := by
  rw [joinWith_append_cons]
  simp [joinWith]

/-- Groups of lines can be joined first. -/
theorem joinWith_flatMap_append {α : Type} {f : α → List Text} (hf : ∀ a, f a ≠ []) (as : List α)
    (rest : List Text) : joinWith [lf] (as.flatMap f ++ rest)
      = joinWith [lf] (as.map (fun a => joinWith [lf] (f a)) ++ rest) := by
  have hgroups : unlines (as.flatMap f) = unlines (as.map fun a => joinWith [lf] (f a)) := by
    induction as with
    | nil => rfl
    | cons a as ih =>
      rw [List.flatMap_cons, unlines_append, ih, unlines_eq_joinWith (hf a), List.map_cons,
        unlines_cons, List.append_assoc, List.singleton_append]
  cases as with
  | nil => rfl
  | cons a as =>
    have hne : (a :: as).flatMap f ++ rest ≠ [] := by simp [hf a]
    have hne' : (a :: as).map (fun a => joinWith [lf] (f a)) ++ rest ≠ [] := by simp
    have hall : unlines ((a :: as).flatMap f ++ rest)
        = unlines ((a :: as).map (fun a => joinWith [lf] (f a)) ++ rest) := by
      rw [unlines_append, unlines_append, hgroups]
    rw [unlines_eq_joinWith hne, unlines_eq_joinWith hne'] at hall
    exact List.append_cancel_right hall

/-- No piece between separators holds one. -/
theorem sep_notMem_of_mem_splitOn {sep : Char} {t piece : Text} (h : piece ∈ t.splitOn sep) :
    sep ∉ piece := by
  induction t generalizing piece with
  | nil =>
    rw [List.splitOn_nil, List.mem_singleton] at h
    rw [h]
    exact List.not_mem_nil
  | cons c t ih =>
    rw [List.splitOn_cons_eq_if_modifyHead] at h
    split at h
    · rcases List.mem_cons.1 h with rfl | h
      · exact List.not_mem_nil
      · exact ih h
    · rename_i hc
      obtain ⟨first, rest, hsplit⟩ := List.exists_cons_of_ne_nil (List.splitOn_ne_nil sep t)
      rw [hsplit] at h ih
      rcases List.mem_cons.1 h with rfl | h
      · have hne : sep ≠ c := fun heq => hc (beq_iff_eq.2 heq.symm)
        rw [List.mem_cons, not_or]
        exact ⟨hne, ih (List.mem_cons_self ..)⟩
      · exact ih (List.mem_cons_of_mem _ h)

/-- A separator ends what is split off before it. -/
theorem splitOn_append_cons (sep : Char) (t u : Text) :
    (t ++ sep :: u).splitOn sep = t.splitOn sep ++ u.splitOn sep := by
  induction t with
  | nil => simp [List.splitOn_cons_eq_if_modifyHead]
  | cons c t ih =>
    rw [List.cons_append, List.splitOn_cons_eq_if_modifyHead, List.splitOn_cons_eq_if_modifyHead, ih]
    split
    · rfl
    · obtain ⟨first, rest, hsplit⟩ := List.exists_cons_of_ne_nil (List.splitOn_ne_nil sep t)
      rw [hsplit]
      rfl

/-- Splitting at line feeds gives back the lines that line feeds end. -/
theorem splitOn_unlines {ls : List Text} (hne : ls ≠ []) (hlf : ∀ l ∈ ls, lf ∉ l) :
    (dropSuffix [lf] (unlines ls)).splitOn lf = ls := by
  rw [unlines_eq_joinWith hne, dropSuffix_append]
  exact List.splitOn_intercalate lf hlf hne

/-- Lines that do not end with a carriage return, and of which the last one is not empty, are given
back as they are. -/
theorem map_dropCr_linesOfPieces {ls : List Text} (hcr : ∀ l ∈ ls, l.getLast? ≠ some cr)
    (hlast : ls.getLast? ≠ some []) : (linesOfPieces ls).map dropCr = ls := by
  induction ls with
  | nil => rfl
  | cons l ls ih =>
    rw [List.forall_mem_cons] at hcr
    have hl : dropCr l = l := dropCr_eq_self hcr.1
    cases ls with
    | nil =>
      have hne : l ≠ [] := by simpa using hlast
      simp [linesOfPieces, hne, hl]
    | cons k ls =>
      have hrest := ih hcr.2 (by simpa using hlast)
      rw [linesOfPieces, List.map_cons, hrest, hl, hl]
      simp

theorem lines_joinWith {ls : List Text} (hne : ls ≠ []) (hlf : ∀ l ∈ ls, lf ∉ l)
    (hcr : ∀ l ∈ ls, l.getLast? ≠ some cr) (hlast : ls.getLast? ≠ some []) :
    (joinWith [lf] ls).lines.map dropCr = ls := by
  have hsplit : (joinWith [lf] ls).splitOn lf = ls := List.splitOn_intercalate lf hlf hne
  rw [lines, hsplit, map_dropCr_linesOfPieces hcr hlast]

/-- The lines of pieces: the last one is a line unless it is empty, and a line feed ends the
others. -/
theorem linesOfPieces_concat (ps : List Text) (p : Text) :
    linesOfPieces (ps ++ [p]) = ps.map dropCr ++ if p.isEmpty then [] else [p] := by
  induction ps with
  | nil => rfl
  | cons q ps ih =>
    rw [List.map_cons, List.cons_append, List.cons_append, ← ih, linesOfPieces]
    simp

/-- A line is a piece, or a piece without the carriage return at its end. -/
theorem exists_of_mem_linesOfPieces {ps : List Text} {l : Text} (hl : l ∈ linesOfPieces ps) :
    ∃ p ∈ ps, l = p ∨ l = dropCr p := by
  rcases List.eq_nil_or_concat ps with rfl | ⟨front, last, rfl⟩
  · cases hl
  rw [List.concat_eq_append] at hl ⊢
  rw [linesOfPieces_concat, List.mem_append] at hl
  rcases hl with hl | hl
  · obtain ⟨p, hp, rfl⟩ := List.mem_map.1 hl
    exact ⟨p, List.mem_append_left _ hp, .inr rfl⟩
  · split at hl
    · cases hl
    · exact ⟨l, List.mem_append_right _ hl, .inl rfl⟩

theorem linesOfPieces_append (ps : List Text) {qs : List Text} (hqs : qs ≠ []) :
    linesOfPieces (ps ++ qs) = ps.map dropCr ++ linesOfPieces qs := by
  induction ps with
  | nil => rfl
  | cons p ps ih =>
    rw [List.cons_append, List.map_cons, List.cons_append, ← ih, linesOfPieces]
    exact fun h => hqs (List.append_eq_nil_iff.1 h).2

/-- What a line feed ends stands in lines before those of what follows. -/
theorem lines_append_lf (t u : Text) :
    (t ++ lf :: u).lines = (t.splitOn lf).map dropCr ++ u.lines := by
  rw [lines, splitOn_append_cons, linesOfPieces_append _ (List.splitOn_ne_nil lf u), lines]

/-- A line that a line feed ends stands before the lines of what follows. -/
theorem lines_append_cons {l : Text} (hl : lf ∉ l) (t : Text) :
    (l ++ lf :: t).lines = dropCr l :: t.lines := by
  rw [lines_append_lf, List.splitOn_eq_singleton hl]
  rfl

/-- Lines with line feeds stand before the lines of what follows. -/
theorem lines_unlines_append {ls : List Text} (hlf : ∀ l ∈ ls, lf ∉ l) (rest : Text) :
    (unlines ls ++ rest).lines = ls.map dropCr ++ rest.lines := by
  induction ls with
  | nil => rfl
  | cons l ls ih =>
    rw [List.forall_mem_cons] at hlf
    rw [unlines_cons, List.append_assoc, List.cons_append, lines_append_cons hlf.1, ih hlf.2]
    rfl

theorem lines_unlines {ls : List Text} (hlf : ∀ l ∈ ls, lf ∉ l) :
    (unlines ls).lines = ls.map dropCr := by
  have happend := lines_unlines_append hlf []
  rw [List.append_nil] at happend
  exact happend.trans (List.append_nil _)

/-- A piece that is not empty and does not end with a carriage return is a line. -/
theorem mem_linesOfPieces {ps : List Text} {p : Text} (hmem : p ∈ ps) (hne : p ≠ [])
    (hcr : p.getLast? ≠ some cr) : p ∈ linesOfPieces ps := by
  induction ps with
  | nil => cases hmem
  | cons q ps ih =>
    cases ps with
    | nil =>
      obtain rfl : p = q := by simpa using hmem
      simp [linesOfPieces, hne]
    | cons r ps =>
      rw [linesOfPieces]
      · rcases List.mem_cons.1 hmem with rfl | hmem
        · rw [dropCr_eq_self hcr]
          exact List.mem_cons_self ..
        · exact List.mem_cons_of_mem _ (ih hmem)
      · simp

/-- A piece between line feeds that ends with a carriage return stands before a line feed or at the
end. -/
theorem crlf_or_getLast? {ps : List Text} {p : Text} (hmem : p ∈ ps)
    (hcr : p.getLast? = some cr) :
    [cr, lf] <:+: joinWith [lf] ps ∨ (joinWith [lf] ps).getLast? = some cr := by
  induction ps with
  | nil => cases hmem
  | cons q ps ih =>
    cases ps with
    | nil =>
      obtain rfl : p = q := by simpa using hmem
      exact .inr (by simpa [joinWith] using hcr)
    | cons r ps =>
      rw [joinWith_cons_cons]
      rcases List.mem_cons.1 hmem with rfl | hmem
      · obtain ⟨front, rfl⟩ := List.getLast?_eq_some_iff.1 hcr
        exact .inl ⟨front, joinWith [lf] (r :: ps), by simp⟩
      · rcases ih hmem with hfound | hlast
        · exact .inl (hfound.trans List.infix_append_right)
        · refine .inr ?_
          rw [List.getLast?_append, hlast]
          rfl

/-! ## Trimmed texts -/

theorem trimEnd_sublist (t : Text) : (trimEnd t).Sublist t := by
  have hreverse := (List.dropWhile_sublist isBlank (l := t.reverse)).reverse
  rwa [List.reverse_reverse] at hreverse

theorem trim_nil : trim [] = [] := rfl

theorem trim_sublist (t : Text) : t.trim.Sublist t :=
  (trimEnd_sublist _).trans (List.dropWhile_sublist isBlank)

/-- Dropping a class at the end stops at the last character outside of it. -/
theorem dropEndWhile_append_cons {p : Char → Bool} {c : Char} (hc : p c = false) (front back : Text) :
    dropEndWhile p (front ++ c :: back) = front ++ c :: dropEndWhile p back := by
  rw [dropEndWhile, List.reverse_append, List.reverse_cons, List.append_assoc,
    List.singleton_append, List.dropWhile_append, dropEndWhile]
  cases hback : back.reverse.dropWhile p with
  | nil => simp [hc]
  | cons d rest => simp

/-- Trimming the end stops at the last visible character. -/
theorem trimEnd_append_cons {c : Char} (hc : isBlank c = false) (front back : Text) :
    trimEnd (front ++ c :: back) = front ++ c :: trimEnd back :=
  dropEndWhile_append_cons hc front back

/-- Blanks at the end are trimmed with what stands before them. -/
theorem trimEnd_append_blanks {u : Text} (hu : ∀ c ∈ u, isBlank c = true) (t : Text) :
    trimEnd (t ++ u) = trimEnd t := by
  have hall : ∀ c ∈ u.reverse, isBlank c = true := fun c hc => hu c (List.mem_reverse.1 hc)
  rw [trimEnd, dropEndWhile, List.reverse_append, List.dropWhile_append_of_pos hall]
  rfl

/-- A carriage return at the end is a blank. -/
theorem trimEnd_append_dropCr (t l : Text) : trimEnd (t ++ dropCr l) = trimEnd (t ++ l) := by
  by_cases hl : l.getLast? = some cr
  · obtain ⟨front, rfl⟩ := List.getLast?_eq_some_iff.1 hl
    have hcr : ∀ c ∈ [cr], isBlank c = true := List.forall_mem_singleton.2 (by decide)
    rw [dropCr, dropSuffix_append, ← List.append_assoc, trimEnd_append_blanks hcr]
  · rw [dropCr_eq_self hl]

/-- A text is its form without blanks at the end, and blanks. -/
theorem exists_trimEnd (t : Text) :
    ∃ back, t = trimEnd t ++ back ∧ ∀ c ∈ back, isBlank c = true := by
  refine ⟨(t.reverse.takeWhile isBlank).reverse, ?_, fun c hc => ?_⟩
  · rw [trimEnd, dropEndWhile, ← List.reverse_append, List.takeWhile_append_dropWhile,
      List.reverse_reverse]
  · exact List.all_eq_true.1 List.all_takeWhile c (List.mem_reverse.1 hc)

/-- Blanks at the end of a part in the end are blanks at the end of the whole. -/
theorem trimEnd_append_trimEnd (t u : Text) : trimEnd (t ++ trimEnd u) = trimEnd (t ++ u) := by
  obtain ⟨back, hu, hback⟩ := exists_trimEnd u
  have hwhole := trimEnd_append_blanks hback (t ++ trimEnd u)
  rw [List.append_assoc, ← hu] at hwhole
  exact hwhole.symm

/-- A text that starts with a character that is no blank is trimmed at its end only. -/
theorem trim_eq_trimEnd {c : Char} (hc : isBlank c = false) (t : Text) :
    trim (c :: t) = trimEnd (c :: t) := by
  rw [trim, trimStart, List.dropWhile_cons_of_neg (by simp [hc])]

/-- Blanks in front are trimmed. -/
theorem trim_blanks_append {u : Text} (hu : ∀ c ∈ u, isBlank c = true) (t : Text) :
    trim (u ++ t) = trim t := by
  rw [trim, trimStart, List.dropWhile_append_of_pos hu]
  rfl

/-- Blanks at the end are trimmed. -/
theorem trim_append_blanks {u : Text} (hu : ∀ c ∈ u, isBlank c = true) (t : Text) :
    trim (t ++ u) = trim t := by
  have hall : (u ++ []).dropWhile isBlank = [] := List.dropWhile_append_of_pos hu
  rw [List.append_nil] at hall
  rw [trim, trim, trimStart, trimStart, List.dropWhile_append]
  split
  · rename_i hempty
    rw [List.isEmpty_iff.1 hempty, hall]
  · exact trimEnd_append_blanks hu _

theorem trim_trimEnd (t : Text) : trim (trimEnd t) = trim t := by
  obtain ⟨back, ht, hback⟩ := exists_trimEnd t
  have hwhole := trim_append_blanks hback (trimEnd t)
  rw [← ht] at hwhole
  exact hwhole.symm

/-- A trimmed text starts with the first character that is no blank. -/
theorem head?_trim (t : Text) : t.trim.head? = t.find? fun c => !isBlank c := by
  induction t with
  | nil => rfl
  | cons c t ih =>
    cases hc : isBlank c with
    | true =>
      have htrim : trim (c :: t) = trim t := trim_blanks_append (List.forall_mem_singleton.2 hc) t
      rw [htrim, ih, List.find?_cons_of_neg (by simp [hc])]
    | false =>
      rw [trim_eq_trimEnd hc, trimEnd_cons hc, List.find?_cons_of_pos (by simp [hc])]
      rfl

/-- A text is its trimmed form with blanks around it. -/
theorem exists_trim (t : Text) : ∃ front back, t = front ++ (t.trim ++ back) ∧
    (∀ c ∈ front, isBlank c = true) ∧ ∀ c ∈ back, isBlank c = true := by
  refine ⟨t.takeWhile isBlank, (t.trimStart.reverse.takeWhile isBlank).reverse, ?_,
    fun c hc => List.all_eq_true.1 List.all_takeWhile c hc, fun c hc => ?_⟩
  · rw [trim, trimEnd, dropEndWhile, ← List.reverse_append, List.takeWhile_append_dropWhile,
      List.reverse_reverse]
    exact List.takeWhile_append_dropWhile.symm
  · exact List.all_eq_true.1 List.all_takeWhile c (List.mem_reverse.1 hc)

/-- A character that is no blank is left when a text is trimmed. -/
theorem mem_trim {c : Char} (hc : isBlank c = false) {t : Text} (h : c ∈ t) : c ∈ t.trim := by
  obtain ⟨front, back, ht, hfront, hback⟩ := exists_trim t
  rw [ht, List.mem_append, List.mem_append] at h
  rcases h with hmem | hmem | hmem
  · rw [hfront c hmem] at hc
    cases hc
  · exact hmem
  · rw [hback c hmem] at hc
    cases hc

/-- A text without blanks stays as it is. -/
theorem trim_of_isBlank {t : Text} (h : ∀ c ∈ t, isBlank c = false) : t.trim = t := by
  obtain ⟨front, back, ht, hfront, hback⟩ := exists_trim t
  have hnone : ∀ u : Text, (∀ c ∈ u, c ∈ t) → (∀ c ∈ u, isBlank c = true) → u = [] := by
    intro u hu hblank
    refine List.eq_nil_iff_forall_not_mem.2 fun c hc => ?_
    have hc' := h c (hu c hc)
    rw [hblank c hc] at hc'
    cases hc'
  have hf : front = [] := hnone front (fun c hc => by rw [ht]; simp [hc]) hfront
  have hb : back = [] := hnone back (fun c hc => by rw [ht]; simp [hc]) hback
  rw [hf, hb, List.nil_append, List.append_nil] at ht
  exact ht.symm

/-- The last character of a trimmed text is no blank. -/
theorem isBlank_getLast?_of_trim {t : Text} (h : t.trim = t) {c : Char}
    (hc : t.getLast? = some c) : isBlank c = false := by
  have hreverse : t.reverse = (trimStart t).reverse.dropWhile isBlank :=
    calc t.reverse = (trim t).reverse := by rw [h]
      _ = (trimStart t).reverse.dropWhile isBlank := by simp [trim, trimEnd, dropEndWhile]
  have hhead := List.head?_dropWhile_not isBlank (trimStart t).reverse
  rw [← hreverse, List.head?_reverse, hc] at hhead
  simpa using hhead

/-- The last line of a trimmed text is not empty. -/
theorem getLast?_splitOn_ne_nil {t : Text} (h : t.trim = t) (hne : t ≠ []) :
    (t.splitOn lf).getLast? ≠ some [] := by
  intro hlast
  obtain ⟨front, hfront⟩ := List.getLast?_eq_some_iff.1 hlast
  have hunlines := unlines_eq_joinWith (List.splitOn_ne_nil lf t)
  rw [joinWith_splitOn, hfront, unlines_append] at hunlines
  have ht : unlines front = t := List.append_cancel_right hunlines
  -- so the text ends with a line feed, which is a blank
  rcases List.eq_nil_or_concat front with rfl | ⟨rest, l, rfl⟩
  · exact hne ht.symm
  · have hend : t.getLast? = some lf := by
      rw [← ht]
      simp [unlines]
    have hblank := isBlank_getLast?_of_trim h hend
    revert hblank
    decide

/-- A text between two characters that are no blanks is trimmed. -/
theorem trim_eq_self {a b : Char} (ha : isBlank a = false) (hb : isBlank b = false) (t : Text) :
    trim (a :: t ++ [b]) = a :: t ++ [b] := by
  have hstart : trimStart (a :: t ++ [b]) = a :: t ++ [b] := by
    rw [List.cons_append, trimStart, List.dropWhile_cons_of_neg (by simp [ha])]
  rw [trim, hstart, trimEnd, dropEndWhile]
  simp [hb]

/-! ## Numbers -/

theorem isDigit_of_mem_ofNat {n : Nat} {c : Char} (h : c ∈ ofNat n) : c.isDigit := by
  exact Nat.isDigit_of_mem_toDigits (by decide) (by decide) h

theorem ofNat_ne_nil (n : Nat) : ofNat n ≠ [] := Nat.toDigits_ne_nil

/-- The digits of a number read as that number. -/
@[simp]
theorem toNat?_ofNat (n : Nat) : toNat? (ofNat n) = some n := by
  have hdigits : (ofNat n).all Char.isDigit = true :=
    List.all_eq_true.2 fun c hc => isDigit_of_mem_ofNat hc
  have hne : (ofNat n).isEmpty = false := by simpa using ofNat_ne_nil n
  have hfold : (ofNat n).foldl (fun n c => n * 10 + (c.toNat - '0'.toNat)) 0
      = Nat.ofDigitChars 10 (Nat.toDigits 10 n) 0 := by
    simp [ofNat, Nat.ofDigitChars, Nat.mul_comm]
  rw [toNat?, hne, hdigits]
  simp only [Bool.not_false, Bool.and_self, if_true]
  rw [hfold, Nat.ofDigitChars_ten_toDigits]

/-- No needless zero stands in front of a number. -/
theorem ofNat_ne_zero_cons (n : Nat) (c : Char) (rest : Text) : ofNat n ≠ '0' :: c :: rest := by
  induction n using Nat.strongRecOn generalizing c rest with
  | ind n ih =>
    intro h
    by_cases hn : n < 10
    · rw [ofNat, Nat.toDigits_of_lt_base hn] at h
      cases congrArg List.length h
    · have hsplit : ofNat n = ofNat (n / 10) ++ [(n % 10).digitChar] :=
        Nat.toDigits_of_base_le (by decide) (by omega)
      -- the zero would stand in front of the number without its last digit, or be that number
      rcases hfront : ofNat (n / 10) with _ | ⟨a, _ | ⟨b, front⟩⟩
      · exact ofNat_ne_nil _ hfront
      · rw [hsplit, hfront] at h
        obtain rfl : a = '0' := (List.cons.inj h).1
        have hvalue := toNat?_ofNat (n / 10)
        rw [hfront] at hvalue
        have hzero : n / 10 = 0 := (Option.some.inj hvalue).symm
        omega
      · rw [hsplit, hfront] at h
        obtain rfl : a = '0' := (List.cons.inj h).1
        exact ih (n / 10) (by omega) b front hfront

end Text

end Mend
