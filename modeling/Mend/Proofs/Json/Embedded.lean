import Mend.Proofs.Json.LineEnds
import Mend.Proofs.Json.Recovery

/-!
# JSON inside a text

A bracketed value in any layout is recovered from a text that holds it with blanks around it
(`Json.Embeds.recover?`), and from one that goes on and has lines in front, each of which opens a
fenced block or has no bracket that opens a value (`Json.Embeds.recover?_unlines`).

Recovery works on lines and on brackets, not on values. A backtick stands in a spelled value behind
a quote on the same line only (`Json.QuotesTicks`), so no line of the value opens or closes a fenced
block, and of the lines in front those without brackets are left.
-/

namespace Mend

open Text (lf cr)

namespace Json

open Nesting

/-! ## Fences -/

/-- Before each backtick stands a quote on its line. -/
def QuotesTicks (t : Text) : Prop :=
  ∀ a b, t = a ++ '\x60' :: b → ∃ x y, a = x ++ '"' :: y ∧ lf ∉ y

theorem quotesTicks_of_notMem {t : Text} (h : '\x60' ∉ t) : QuotesTicks t := by
  rintro a b rfl
  simp at h

theorem QuotesTicks.append {t u : Text} (ht : QuotesTicks t) (hu : QuotesTicks u) :
    QuotesTicks (t ++ u) := by
  intro a b hab
  rcases List.append_eq_append_iff.1 hab with ⟨a', rfl, hu'⟩ | ⟨b', rfl, ht'⟩
  · obtain ⟨x, y, rfl, hy⟩ := hu a' b hu'
    exact ⟨t ++ x, y, by simp, hy⟩
  · cases b' with
    | nil =>
      obtain ⟨x, y, hx, hy⟩ := hu [] b (by simpa using ht'.symm)
      cases x <;> cases hx
    | cons c b' =>
      obtain ⟨rfl, -⟩ := List.cons.inj ht'
      exact ht a b' rfl

theorem joinsSpelling_quotesTicks : JoinsSpelling QuotesTicks where
  nil := quotesTicks_of_notMem List.not_mem_nil
  append := QuotesTicks.append
  plain := fun hc => quotesTicks_of_notMem fun hmem =>
    hc (List.mem_singleton.1 hmem ▸ (by decide : '\x60' ∈ specialChars))
  text := by
    intro w s hs a b hab
    cases a with
    | nil => cases hab
    | cons c a =>
      obtain ⟨rfl, rfl⟩ := List.cons.inj hab
      -- there are no line feeds between quotes
      have hlf : lf ∉ a := fun hmem =>
        absurd (hs.le_toNat lf (List.mem_append_left _ hmem)) (by decide)
      exact ⟨[], a, rfl, hlf⟩
  brackets := by
    intro c t hopen ht
    obtain rfl | rfl : c = '[' ∨ c = '\x7b' := by simpa [isOpener] using hopen
    · have hfirst := quotesTicks_of_notMem (t := ['[']) (by decide)
      exact hfirst.append (ht.append (quotesTicks_of_notMem (t := [']']) (by decide)))
    · have hfirst := quotesTicks_of_notMem (t := ['\x7b']) (by decide)
      exact hfirst.append (ht.append (quotesTicks_of_notMem (t := ['\x7d']) (by decide)))

end Json

namespace Text

/-- A line that opens or closes a fenced block. -/
def isFence (l : Text) : Bool := fence.isPrefixOf l.trimStart

theorem isFence_iff {l : Text} :
    isFence l = true ↔ ∃ front back, l = front ++ (fence ++ back) ∧ ∀ c ∈ front, isBlank c = true := by
  rw [isFence, List.isPrefixOf_iff_prefix]
  constructor
  · rintro ⟨back, hback⟩
    refine ⟨l.takeWhile isBlank, back, ?_, fun c hc => List.all_eq_true.1 List.all_takeWhile c hc⟩
    rw [hback]
    exact List.takeWhile_append_dropWhile.symm
  · rintro ⟨front, back, rfl, hfront⟩
    have htick : isBlank '\x60' = false := by decide
    refine ⟨back, ?_⟩
    rw [trimStart, List.dropWhile_append_of_pos hfront, fence, List.cons_append,
      List.dropWhile_cons_of_neg (by simp [htick])]

theorem plainQuotes_append (t u : Text) : plainQuotes (t ++ u) = plainQuotes t ++ plainQuotes u :=
  List.filterMap_append

/-- A character is left as it is, or a space or a plain quote is written for it. -/
theorem plainChar?_cases {c d : Char} (h : plainChar? c = some d) :
    d = ' ' ∨ (d ∈ ['"', '\''] ∧ 0x2018 ≤ c.toNat ∧ c.toNat ≤ 0x201F) ∨ d = c := by
  simp only [plainChar?, Bool.and_eq_true, decide_eq_true_eq] at h
  split at h
  · exact .inl (Option.some.inj h).symm
  split at h
  · cases h
  split at h
  · rename_i hdouble
    obtain rfl : '"' = d := Option.some.inj h
    exact .inr (.inl ⟨by decide, by omega, by omega⟩)
  split at h
  · rename_i hsingle
    obtain rfl : '\'' = d := Option.some.inj h
    exact .inr (.inl ⟨by decide, by omega, by omega⟩)
  · exact .inr (.inr (Option.some.inj h).symm)

theorem lf_notMem_plainQuotes {t : Text} (h : lf ∉ t) : lf ∉ t.plainQuotes := by
  intro hmem
  obtain ⟨c, hc, hplain⟩ := List.mem_filterMap.1 hmem
  -- what is written instead of a character is no line feed
  rcases plainChar?_cases hplain with hd | ⟨hd, -⟩ | hd
  · exact absurd hd (by decide)
  · exact absurd hd (by decide)
  · exact h (hd ▸ hc)

/-- A blank is left a blank or dropped. -/
theorem isBlank_of_plainChar? {c d : Char} (hc : isBlank c = true) (h : plainChar? c = some d) :
    isBlank d = true := by
  rcases plainChar?_cases h with rfl | ⟨-, hlow, hhigh⟩ | rfl
  · decide
  · simp only [isBlank, Bool.or_eq_true, Bool.and_eq_true, decide_eq_true_eq, beq_iff_eq] at hc
    omega
  · exact hc

/-- Quotes and wide blanks in the line of a fence do not matter. -/
theorem isFence_plainQuotes {l : Text} (h : isFence l = true) : isFence l.plainQuotes = true := by
  obtain ⟨front, back, rfl, hfront⟩ := isFence_iff.1 h
  rw [isFence_iff, plainQuotes_append, plainQuotes_append]
  refine ⟨front.plainQuotes, back.plainQuotes, rfl, fun d hd => ?_⟩
  obtain ⟨c, hc, hplain⟩ := List.mem_filterMap.1 hd
  exact isBlank_of_plainChar? (hfront c hc) hplain

/-- The carriage return of a fence does not matter. -/
theorem isFence_dropCr {l : Text} (h : isFence l = true) : isFence (dropCr l) = true := by
  obtain ⟨front, back, rfl, hfront⟩ := isFence_iff.1 h
  rw [isFence_iff, dropCr, dropSuffix_append_of_ne_nil (by simp [fence])]
  by_cases hback : back = []
  · have hticks : dropSuffix [cr] fence = fence := dropSuffix_eq_self (by decide)
    exact ⟨front, [], by rw [hback, List.append_nil, hticks], hfront⟩
  · exact ⟨front, dropSuffix [cr] back, by rw [dropSuffix_append_of_ne_nil hback], hfront⟩

/-- Behind a character of written lines a line feed stands. -/
theorem lf_mem_of_unlines {ls : List Text} {x b : Text} {c : Char} (hc : c ≠ lf)
    (h : unlines ls = x ++ c :: b) : lf ∈ b := by
  have hne : ls ≠ [] := by
    rintro rfl
    simp at h
  rw [unlines_eq_joinWith hne] at h
  rcases List.eq_nil_or_concat b with rfl | ⟨front, last, rfl⟩
  · have hlast := List.append_inj_right' h rfl
    exact absurd (List.singleton_inj.1 hlast).symm hc
  · rw [List.concat_eq_append, ← List.cons_append, ← List.append_assoc] at h
    have hlast := List.append_inj_right' h rfl
    simp [List.singleton_inj.1 hlast]

/-- What a line with quoted backticks starts with is no fence. -/
theorem isFence_eq_false {ls : List Text} {l rest : Text}
    (h : Json.QuotesTicks (unlines ls ++ (l ++ rest))) : isFence l = false := by
  rw [Bool.eq_false_iff]
  intro hfence
  obtain ⟨front, back, rfl, hfront⟩ := isFence_iff.1 hfence
  obtain ⟨x, y, hxy, hy⟩ := h (unlines ls ++ front) (['\x60', '\x60'] ++ back ++ rest)
    (by simp [fence])
  have hquote : isBlank '"' = false := by decide
  have hnone : '"' ∉ front := fun hmem => by
    rw [hfront '"' hmem] at hquote
    cases hquote
  -- no quote is among the blanks, so it would stand on the line before
  rcases List.append_eq_append_iff.1 hxy with ⟨a, -, hfront⟩ | ⟨b, hunlines, hb⟩
  · exact hnone (by simp [hfront])
  cases b with
  | nil =>
    rw [List.nil_append] at hb
    exact hnone (hb ▸ List.mem_cons_self ..)
  | cons c b =>
    obtain ⟨rfl, rfl⟩ := List.cons.inj hb
    exact hy (List.mem_append_left _ (lf_mem_of_unlines (by decide) hunlines))

/-- The lines of a text with quoted backticks open and close no fenced block. -/
theorem isFence_of_mem_pieces {t p : Text} (ht : Json.QuotesTicks t) (hp : p ∈ t.splitOn lf) :
    isFence p = false ∧ isFence (dropCr p) = false := by
  obtain ⟨before, after, hsplit⟩ := List.append_of_mem hp
  obtain ⟨rest, hrest⟩ := exists_joinWith_cons [lf] p after
  have htext : t = unlines before ++ (p ++ rest) := by
    rw [← hrest, ← joinWith_append_cons, ← hsplit, joinWith_splitOn]
  rw [htext] at ht
  refine ⟨isFence_eq_false ht, ?_⟩
  obtain ⟨tail, htail⟩ : ∃ tail, p = dropCr p ++ tail := by
    by_cases hcr : p.getLast? = some cr
    · obtain ⟨front, rfl⟩ := List.getLast?_eq_some_iff.1 hcr
      exact ⟨[cr], by rw [dropCr, dropSuffix_append]⟩
    · exact ⟨[], by rw [dropCr_eq_self hcr, List.append_nil]⟩
  rw [htail, List.append_assoc] at ht
  exact isFence_eq_false ht

/-- A text with quoted backticks keeps its lines when fences are dropped. -/
theorem withoutFences_of_quotesTicks {t : Text} (ht : Json.QuotesTicks t) :
    t.withoutFences = joinWith [lf] t.lines := by
  have hlines : ∀ l ∈ t.lines, (!isFence l) = true := by
    intro l hl
    obtain ⟨p, hp, hpiece⟩ := exists_of_mem_linesOfPieces hl
    obtain ⟨hwhole, hcut⟩ := isFence_of_mem_pieces ht hp
    rcases hpiece with rfl | rfl
    · rw [hwhole]
      rfl
    · rw [hcut]
      rfl
  exact congrArg (joinWith [lf]) (List.filter_eq_self.2 hlines)

/-! ## Lines in front -/

/-- A line that recovery passes over: it opens or closes a fenced block, or no bracket in it opens a
value. -/
def IsPassed (l : Text) : Prop :=
  isFence l = true ∨ ∀ c ∈ l, Nesting.isOpener c = false

theorem isPassed_plainQuotes {l : Text} (h : IsPassed l) : IsPassed l.plainQuotes := by
  rcases h with hfence | hno
  · exact .inl (isFence_plainQuotes hfence)
  · refine .inr fun d hd => ?_
    obtain ⟨c, hc, hplain⟩ := List.mem_filterMap.1 hd
    -- neither a space nor a quote opens a value
    rcases plainChar?_cases hplain with rfl | ⟨hd, -⟩ | rfl
    · rfl
    · have hquotes : ∀ d ∈ ['"', '\''], Nesting.isOpener d = false :=
        forall_mem_of_all (by decide)
      exact hquotes d hd
    · exact hno d hc

theorem isPassed_dropCr {l : Text} (h : IsPassed l) : IsPassed (dropCr l) := by
  rcases h with hfence | hno
  · exact .inl (isFence_dropCr hfence)
  · exact .inr fun c hc => hno c ((dropCr_sublist l).subset hc)

theorem plainQuotes_unlines_append (ls : List Text) (rest : Text) :
    (unlines ls ++ rest).plainQuotes = unlines (ls.map plainQuotes) ++ rest.plainQuotes := by
  induction ls with
  | nil => rfl
  | cons l ls ih =>
    have hlf : ∀ t : Text, plainQuotes (lf :: t) = lf :: t.plainQuotes := fun _ => rfl
    simp [plainQuotes_append, hlf, ih]

/-- Of lines that are passed over, those without brackets are left in front of the text behind
them. -/
theorem exists_withoutFences_unlines {ls : List Text} (hlf : ∀ l ∈ ls, lf ∉ l)
    (hls : ∀ l ∈ ls, IsPassed l) {body : Text} (hbody : Json.QuotesTicks body) (rest : Text) :
    ∃ front rest', (unlines ls ++ (body ++ lf :: rest)).withoutFences
        = front ++ (joinWith [lf] ((body.splitOn lf).map dropCr) ++ rest') ∧
      ∀ c ∈ front, Nesting.isOpener c = false := by
  have hpieces : ∀ p ∈ (body.splitOn lf).map dropCr, (!isFence p) = true := by
    intro p hp
    obtain ⟨q, hq, rfl⟩ := List.mem_map.1 hp
    rw [(isFence_of_mem_pieces hbody hq).2]
    rfl
  have hne : (body.splitOn lf).map dropCr ≠ [] := by simp [List.splitOn_ne_nil]
  -- what is left are the lines in front without fences, the body, and some of what follows
  have hkept : (unlines ls ++ (body ++ lf :: rest)).withoutFences
      = unlines ((ls.map dropCr).filter (!isFence ·)) ++
        joinWith [lf] ((body.splitOn lf).map dropCr ++ rest.lines.filter (!isFence ·)) := by
    change joinWith [lf] ((unlines ls ++ (body ++ lf :: rest)).lines.filter (!isFence ·)) = _
    rw [lines_unlines_append hlf, lines_append_lf, List.filter_append, List.filter_append,
      List.filter_eq_self.2 hpieces]
    obtain ⟨p, ps, hps⟩ := List.exists_cons_of_ne_nil hne
    rw [hps, List.cons_append, joinWith_append_cons]
  obtain ⟨rest', hrest⟩ := exists_joinWith_append [lf] hne (rest.lines.filter (!isFence ·))
  refine ⟨_, rest', by rw [hkept, hrest], fun c hc => ?_⟩
  simp only [unlines, List.mem_flatMap, List.mem_filter, List.mem_map, List.mem_append,
    List.mem_singleton] at hc
  obtain ⟨-, ⟨⟨l, hl, rfl⟩, hfence⟩, hc⟩ := hc
  rcases hc with hc | rfl
  · rcases isPassed_dropCr (hls l hl) with hpassed | hno
    · rw [hpassed] at hfence
      cases hfence
    · exact hno c hc
  · rfl

/-- The first bracketed value of a text stands behind what opens no value. -/
theorem balanced?_append_of_forall {front : Text} (h : ∀ c ∈ front, Nesting.isOpener c = false)
    (t : Text) : balanced? (front ++ t) = balanced? t := by
  rw [balanced?, balanced?, List.dropWhile_append_of_pos fun c hc => by simp [h c hc]]

end Text

namespace Json

open Nesting

/-! ## Values with blanks around them -/

/-- The text is the value with blanks around it. -/
inductive Embeds : Text → Json → Prop
  | mk {front w back : Text} {v : Json} : (∀ c ∈ front, Text.isBlank c = true) →
      Spells maxDepth w v → (∀ c ∈ back, Text.isBlank c = true) → Embeds (front ++ (w ++ back)) v

theorem isBlank_of_isGap {c : Char} (hc : isGap c = true) : Text.isBlank c = true := by
  simp only [isGap, Bool.or_eq_true, beq_iff_eq, or_assoc] at hc
  rcases hc with rfl | rfl | rfl | rfl
  all_goals decide

/-- What reads as a value is that value. -/
theorem embeds_of_read? {t : Text} {v : Json} (h : read? t = some v) : Embeds t v := by
  obtain ⟨hgap, hv, hback⟩ := read?_eq_some_iff.1 h
  exact .mk (fun c hc => isBlank_of_isGap (hgap c hc)) hv fun c hc => isBlank_of_isGap (hback c hc)

variable {t : Text} {v : Json}

/-- The blanks around a value do not matter. -/
theorem embeds_of_trim (h : Embeds t.trim v) : Embeds t v := by
  obtain ⟨front, back, ht, hfront, hback⟩ := Text.exists_trim t
  generalize t.trim = u at h ht
  rcases h with @⟨inner, w, outer, _, hinner, hv, houter⟩
  have hgroup : t = (front ++ inner) ++ (w ++ (outer ++ back)) := by simp [ht]
  rw [hgroup]
  exact .mk (List.forall_mem_append.2 ⟨hfront, hinner⟩) hv (List.forall_mem_append.2 ⟨houter, hback⟩)

/-- A value is still there when line ends are lost. -/
theorem Embeds.relined {u : Text} (h : Embeds t v) (hu : Text.Relined t u) : Embeds u v := by
  obtain ⟨hfront, hv, hback⟩ := h
  obtain ⟨front, rest, rfl, hf, hrest⟩ := hu.exists_append
  obtain ⟨w, back, rfl, hw, hb⟩ := hrest.exists_append
  exact .mk (hf.forall_mem hfront) (hv.relined hw) (hb.forall_mem hback)

theorem Embeds.quotesTicks (h : Embeds t v) : QuotesTicks t := by
  obtain ⟨hfront, hv, hback⟩ := h
  have hblanks : ∀ {u : Text}, (∀ c ∈ u, Text.isBlank c = true) → QuotesTicks u := fun hu =>
    quotesTicks_of_notMem fun hmem => absurd (hu _ hmem) (by decide)
  exact (hblanks hfront).append ((hv.induction joinsSpelling_quotesTicks).append (hblanks hback))

/-- A bracketed value is left when the blanks around it are trimmed. -/
theorem Embeds.spells_trim (h : Embeds t v) (hv : v.isBracketed = true) :
    Spells maxDepth t.trim v := by
  rcases h with @⟨front, w, back, _, hfront, hspells, hback⟩
  obtain ⟨c, u, rfl, hopen, -⟩ := hspells.exists_brackets hv
  have hc := isBlank_of_isOpener hopen
  have htrim : Text.trim (front ++ (c :: (u ++ [closerOf c]) ++ back)) = c :: (u ++ [closerOf c]) :=
    calc Text.trim (front ++ (c :: (u ++ [closerOf c]) ++ back))
        = Text.trim (c :: (u ++ [closerOf c]) ++ back) := Text.trim_blanks_append hfront _
      _ = Text.trimEnd (c :: (u ++ [closerOf c]) ++ back) := Text.trim_eq_trimEnd hc.1 _
      _ = Text.trimEnd (c :: (u ++ [closerOf c])) := Text.trimEnd_append_blanks hback _
      _ = Text.trim (c :: (u ++ [closerOf c])) := (Text.trim_eq_trimEnd hc.1 _).symm
      _ = c :: (u ++ [closerOf c]) := Text.trim_eq_self hc.1 hc.2 u
  rw [htrim]
  exact hspells

theorem isOpener_eq_false_of_isBlank {c : Char} (hc : Text.isBlank c = true) :
    isOpener c = false := by
  rw [Bool.eq_false_iff]
  intro hopen
  rw [(isBlank_of_isOpener hopen).1] at hc
  cases hc

/-- Trimming leaves the value. -/
theorem Embeds.trim (h : Embeds t v) (hv : v.isBracketed = true) : Embeds t.trim v := by
  have hspells := h.spells_trim hv
  generalize t.trim = w at hspells
  have hno : ∀ c ∈ ([] : Text), Text.isBlank c = true := List.forall_mem_nil _
  have hembeds : Embeds ([] ++ (w ++ [])) v := .mk hno hspells hno
  rwa [List.nil_append, List.append_nil] at hembeds

/-- A text with a bracketed value has a bracket. -/
theorem Embeds.any_isOpener (h : Embeds t v) (hv : v.isBracketed = true) :
    t.any isOpener = true := by
  obtain ⟨-, hspells, -⟩ := h
  obtain ⟨c, u, rfl, hopen, -⟩ := hspells.exists_brackets hv
  simp [hopen]

/-- A value in a text that starts with a bracket is bracketed. -/
theorem Embeds.isBracketed (h : Embeds t v) (ht : t.head?.any isOpener = true) :
    v.isBracketed = true := by
  rcases h with @⟨front, w, back, _, hfront, hspells, -⟩
  cases front with
  | nil =>
    obtain ⟨c, u, rfl, -⟩ := hspells.exists_cons
    exact hspells.isBracketed ht
  | cons c front =>
    have hopen : isOpener c = true := ht
    rw [isOpener_eq_false_of_isBlank (hfront c (List.mem_cons_self ..))] at hopen
    cases hopen

/-- The value is the first bracketed one of a text that starts with it. -/
theorem Embeds.balanced?_append (h : Embeds t v) (hv : v.isBracketed = true) (rest : Text) :
    ∃ w, Text.balanced? (t ++ rest) = some w ∧ read? w = some v := by
  rcases h with @⟨front, w, back, _, hfront, hspells, -⟩
  refine ⟨w, ?_, ?_⟩
  · rw [List.append_assoc, List.append_assoc, Text.balanced?_append_of_forall fun c hc =>
      isOpener_eq_false_of_isBlank (hfront c hc)]
    exact hspells.balanced?_append hv _
  · have hpadded : SpellsPadded maxDepth ([] ++ (w ++ [])) v := .mk isGap_nil hspells isGap_nil
    rw [List.nil_append, List.append_nil] at hpadded
    exact read?_eq_some_iff.2 hpadded

/-- The brackets of a value enclose all of a trimmed text that reads as the value. -/
theorem balanced?_of_read? (htrim : t.trim = t) (hopen : t.head?.any isOpener = true)
    (h : read? t = some v) : Text.balanced? t = some t := by
  have hembeds := embeds_of_read? h
  have hv := hembeds.isBracketed hopen
  have hspells := hembeds.spells_trim hv
  rw [htrim] at hspells
  have hbalanced := hspells.balanced?_append hv []
  rwa [List.append_nil] at hbalanced

/-- A bracketed value is recovered from a text that holds nothing else. -/
theorem Embeds.recover? (h : Embeds t v) (hv : v.isBracketed = true) (hplain : t.plainQuotes = t) :
    recover? t = some v := by
  have hlines := h.relined (Text.relined_lines t)
  obtain ⟨w, hw, hread⟩ := hlines.balanced?_append hv []
  rw [List.append_nil] at hw
  rw [Json.recover?, hplain, Text.withoutFences_of_quotesTicks h.quotesTicks, hw]
  exact hread

/-- A bracketed value is recovered from behind lines that are passed over, whatever follows it. -/
theorem Embeds.recover?_unlines (h : Embeds t v) (hv : v.isBracketed = true)
    (hplain : t.plainQuotes = t) {ls : List Text} (hlf : ∀ l ∈ ls, lf ∉ l)
    (hls : ∀ l ∈ ls, Text.IsPassed l) (rest : Text) :
    Json.recover? (Text.unlines ls ++ (t ++ lf :: rest)) = some v := by
  have hquotes : Text.plainQuotes (t ++ lf :: rest) = t ++ lf :: rest.plainQuotes := by
    rw [Text.plainQuotes_append, hplain]
    rfl
  obtain ⟨front, rest', hkept, hfront⟩ := Text.exists_withoutFences_unlines
    (List.forall_mem_map.2 fun l hl => Text.lf_notMem_plainQuotes (hlf l hl))
    (List.forall_mem_map.2 fun l hl => Text.isPassed_plainQuotes (hls l hl))
    h.quotesTicks rest.plainQuotes
  have hlines := Text.relined_map_dropCr (t.splitOn lf)
  rw [Text.joinWith_splitOn] at hlines
  obtain ⟨w, hw, hread⟩ := (h.relined hlines).balanced?_append hv rest'
  rw [Json.recover?, Text.plainQuotes_unlines_append, hquotes, hkept,
    Text.balanced?_append_of_forall hfront, hw]
  exact hread

/-- A bracketed value is recovered from a fenced block. -/
theorem Embeds.recover?_fenced (h : Embeds t v) (hv : v.isBracketed = true)
    (hplain : t.plainQuotes = t) {l : Text} (hl : lf ∉ l) (hfence : Text.isFence l = true)
    (rest : Text) : Json.recover? (l ++ lf :: (t ++ lf :: rest)) = some v := by
  have hrecover := h.recover?_unlines hv hplain (List.forall_mem_singleton.2 hl)
    (List.forall_mem_singleton.2 (Or.inl hfence)) rest
  rwa [Text.unlines_cons, Text.unlines_nil, List.append_assoc, List.singleton_append] at hrecover

end Json

end Mend
