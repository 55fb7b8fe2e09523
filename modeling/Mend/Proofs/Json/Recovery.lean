import Mend.Proofs.Json.Brackets

/-!
# Recovering what was written

The compact form of an array or an object is recovered as it is (`Json.recover?_compact`), when its
texts hold no characters that look like JSON's own: replacing such characters and dropping fences
change nothing, and the first bracketed value is the whole text.

What holds of the texts of a value and of the characters between them holds of the value in every
layout (`Json.Layout.write_induction`).
-/

namespace Mend

namespace Json

/-! ## Characters -/

mutual

/-- The texts of a value, the names of members included. -/
def texts : Json → List Text
  | text t => [t]
  | array vs => textsOfItems vs
  | object ms => textsOfMembers ms
  | _ => []

/-- The texts of items. -/
def textsOfItems : List Json → List Text
  | [] => []
  | v :: vs => v.texts ++ textsOfItems vs

/-- The texts of members, their names included. -/
def textsOfMembers : List (Text × Json) → List Text
  | [] => []
  | (k, v) :: ms => k :: v.texts ++ textsOfMembers ms

end

/-- The characters between the texts of a value. -/
def tokenChars : Text := "nulltruefals-0123456789[]\x7b\x7d:,\"".toList

theorem mem_tokenChars_of_isDigit {c : Char} (hc : c.isDigit = true) : c ∈ tokenChars := by
  have hdigits : ∀ n < 10, Char.ofNat (48 + n) ∈ tokenChars := by decide
  obtain ⟨hlow, hhigh⟩ : 48 ≤ c.toNat ∧ c.toNat ≤ 57 := by
    simpa [Char.isDigit, UInt32.le_iff_toNat_le] using hc
  have hmem := hdigits (c.toNat - 48) (by omega)
  rwa [Nat.add_sub_cancel' hlow, Char.ofNat_toNat] at hmem

/-- A property of texts that joins over texts and holds of the characters between the texts of a
value. -/
structure JoinsTokens (Q : Text → Prop) : Prop where
  nil : Q []
  append : ∀ {a b : Text}, Q a → Q b → Q (a ++ b)
  token : ∀ c ∈ tokenChars, Q [c]

theorem JoinsTokens.of_subset {Q : Text → Prop} (hQ : JoinsTokens Q) {t : Text}
    (h : t ⊆ tokenChars) : Q t := by
  induction t with
  | nil => exact hQ.nil
  | cons c t ih =>
    have hc := hQ.token c (h (List.mem_cons_self ..))
    exact hQ.append hc (ih fun d hd => h (List.mem_cons_of_mem _ hd))

section Induction

variable {Q : Text → Prop}

theorem JoinsTokens.number (hQ : JoinsTokens Q) {n : JsonNumber} (h : n.IsWhole) : Q n.write :=
  hQ.of_subset fun _ hc => JsonNumber.forall_mem_write (fun _ => mem_tokenChars_of_isDigit)
    (by decide : '-' ∈ tokenChars) h _ hc

namespace Layout

mutual

/-- A property that joins over texts holds of a value in a layout when it holds of its texts and of
the white space between them. -/
theorem write_induction (l : Layout) (hQ : JoinsTokens Q) (hline : ∀ level, Q (l.line level))
    (hspace : Q l.space) : ∀ (v : Json) (level depth : Nat), v.IsReadable depth →
    (∀ t ∈ v.texts, Q (writeText t)) → Q (l.write level v)
  | null, _, _, _, _ => by
    rw [write, compact]
    exact hQ.of_subset (by decide)
  | bool b, _, _, _, _ => by
    rw [write, compact]
    cases b with
    | true => exact hQ.of_subset (by decide)
    | false => exact hQ.of_subset (by decide)
  | number n, _, _, h, _ => by
    rw [write, compact]
    exact hQ.number h
  | text t, _, _, _, ht => by
    rw [write, compact]
    exact ht t (by simp [texts])
  | array [], _, _, _, _ => by
    rw [write]
    exact hQ.of_subset (by decide)
  | array (v :: vs), level, _, h, ht => by
    simp only [IsReadable, AreReadable] at h
    simp only [texts, textsOfItems, List.forall_mem_append] at ht
    have hv := l.write_induction hQ hline hspace v (level + 1) _ h.2.1 ht.1
    have hvs := l.writeItems_induction hQ hline hspace vs (level + 1) _ h.2.2 ht.2
    have hopen := hQ.append (hQ.token '[' (by decide)) (hline (level + 1))
    have hclose := hQ.append (hline level) (hQ.token ']' (by decide))
    simpa [write] using hQ.append (hQ.append hopen (hQ.append hv hvs)) hclose
  | object [], _, _, _, _ => by
    rw [write]
    exact hQ.of_subset (by decide)
  | object ((k, v) :: ms), level, _, h, ht => by
    simp only [IsReadable, HaveReadable] at h
    simp only [texts, textsOfMembers, List.forall_mem_append, List.forall_mem_cons] at ht
    have hv := l.write_induction hQ hline hspace v (level + 1) _ h.2.1 ht.1.2
    have hms := l.writeMembers_induction hQ hline hspace ms (level + 1) _ h.2.2 ht.2
    have hopen := hQ.append (hQ.token '\x7b' (by decide)) (hline (level + 1))
    have hcolon := hQ.append (hQ.token ':' (by decide)) hspace
    have hclose := hQ.append (hline level) (hQ.token '\x7d' (by decide))
    have hname := hQ.append (hQ.append hopen ht.1.1) hcolon
    simpa [write] using hQ.append (hQ.append hname (hQ.append hv hms)) hclose

/-- The same for further items. -/
theorem writeItems_induction (l : Layout) (hQ : JoinsTokens Q) (hline : ∀ level, Q (l.line level))
    (hspace : Q l.space) : ∀ (vs : List Json) (level depth : Nat), AreReadable vs depth →
    (∀ t ∈ textsOfItems vs, Q (writeText t)) → Q (l.writeItems level vs)
  | [], _, _, _, _ => by
    rw [writeItems]
    exact hQ.nil
  | v :: vs, level, _, h, ht => by
    rw [AreReadable] at h
    simp only [textsOfItems, List.forall_mem_append] at ht
    have hv := l.write_induction hQ hline hspace v level _ h.1 ht.1
    have hvs := l.writeItems_induction hQ hline hspace vs level _ h.2 ht.2
    have hcomma := hQ.append (hQ.token ',' (by decide)) (hline level)
    simpa [writeItems] using hQ.append hcomma (hQ.append hv hvs)

/-- The same for further members. -/
theorem writeMembers_induction (l : Layout) (hQ : JoinsTokens Q) (hline : ∀ level, Q (l.line level))
    (hspace : Q l.space) : ∀ (ms : List (Text × Json)) (level depth : Nat), HaveReadable ms depth →
    (∀ t ∈ textsOfMembers ms, Q (writeText t)) → Q (l.writeMembers level ms)
  | [], _, _, _, _ => by
    rw [writeMembers]
    exact hQ.nil
  | (k, v) :: ms, level, _, h, ht => by
    rw [HaveReadable] at h
    simp only [textsOfMembers, List.forall_mem_append, List.forall_mem_cons] at ht
    have hv := l.write_induction hQ hline hspace v level _ h.1 ht.1.2
    have hms := l.writeMembers_induction hQ hline hspace ms level _ h.2 ht.2
    have hcomma := hQ.append (hQ.token ',' (by decide)) (hline level)
    have hcolon := hQ.append (hQ.token ':' (by decide)) hspace
    have hname := hQ.append (hQ.append hcomma ht.1.1) hcolon
    simpa [writeMembers] using hQ.append hname (hQ.append hv hms)

end

end Layout

/-- The compact form has no white space. -/
theorem compact_induction (hQ : JoinsTokens Q) {v : Json} {depth : Nat} (h : v.IsReadable depth)
    (ht : ∀ t ∈ v.texts, Q (writeText t)) : Q v.compact := by
  rw [← Layout.tight_write v 0]
  exact Layout.tight.write_induction hQ (fun _ => hQ.nil) hQ.nil v 0 depth h ht

end Induction

/-- The characters of a value in a layout are those between texts, white space and those written for
texts. -/
theorem Layout.forall_mem_write (l : Layout) {P : Char → Prop} (htoken : ∀ c ∈ tokenChars, P c)
    (hline : ∀ level, ∀ c ∈ l.line level, P c) (hspace : ∀ c ∈ l.space, P c) {v : Json}
    (level : Nat) {depth : Nat} (h : v.IsReadable depth)
    (ht : ∀ t ∈ v.texts, ∀ c ∈ t, ∀ d ∈ writeChar c, P d) : ∀ c ∈ l.write level v, P c := by
  have hjoins : JoinsTokens fun t => ∀ c ∈ t, P c := by
    refine ⟨fun c hc => absurd hc List.not_mem_nil, fun ha hb => ?_, fun c hc => ?_⟩
    · exact List.forall_mem_append.2 ⟨ha, hb⟩
    · simpa using htoken c hc
  refine l.write_induction hjoins hline hspace v level depth h fun t hmem c hc => ?_
  -- a written text is its quotes and what is written for its characters
  simp only [writeText, List.mem_append, List.mem_cons, List.mem_flatMap, List.not_mem_nil,
    or_false] at hc
  have hquote : P '"' := htoken _ (by decide)
  rcases hc with (rfl | ⟨d, hd, hc⟩) | rfl
  · exact hquote
  · exact ht t hmem d hd c hc
  · exact hquote

end Json

namespace Text

/-! ## Normal form -/

/-- A text in which nothing is replaced holds plain characters only. -/
theorem plainChar?_of_plainQuotes {t : Text} (h : t.plainQuotes = t) :
    ∀ c ∈ t, plainChar? c = some c := by
  induction t with
  | nil => exact fun c hc => absurd hc List.not_mem_nil
  | cons c t ih =>
    have hlength : (plainQuotes t).length ≤ t.length := List.length_filterMap_le ..
    cases hc : plainChar? c with
    | none =>
      -- the rest would have to be longer than it is
      rw [plainQuotes, List.filterMap_cons_none hc] at h
      have := congrArg List.length h
      rw [List.length_cons] at this
      rw [plainQuotes] at hlength
      omega
    | some d =>
      rw [plainQuotes, List.filterMap_cons_some hc] at h
      obtain ⟨rfl, hrest⟩ := List.cons.inj h
      exact List.forall_mem_cons.2 ⟨hc, ih hrest⟩

theorem plainQuotes_eq_self {t : Text} (h : ∀ c ∈ t, plainChar? c = some c) :
    t.plainQuotes = t := by
  induction t with
  | nil => rfl
  | cons c t ih =>
    rw [List.forall_mem_cons] at h
    have hrest := ih h.2
    rw [plainQuotes] at hrest ⊢
    rw [List.filterMap_cons_some h.1, hrest]

/-- A text without line feeds that is not empty is its only line. -/
theorem lines_of_lf_notMem {t : Text} (hne : t ≠ []) (hlf : lf ∉ t) : t.lines = [t] := by
  simp [lines, List.splitOn_eq_singleton hlf, linesOfPieces, hne]

/-- A single line that opens no fenced block stays. -/
theorem withoutFences_eq_self {t : Text} (hne : t ≠ []) (hlf : lf ∉ t)
    (hfence : ¬ fence <+: t.trimStart) : t.withoutFences = t := by
  have hkept : fence.isPrefixOf t.trimStart = false := by
    rw [Bool.eq_false_iff]
    exact fun h => hfence (List.isPrefixOf_iff_prefix.1 h)
  rw [withoutFences, lines_of_lf_notMem hne hlf, List.filter_cons, hkept]
  simp [joinWith]

end Text

namespace Json

open Nesting

/-- The characters of escapes. -/
def escapeChars : Text := "\\\"nrtbfu0123456789abcdef".toList

/-- What is written for a character is the character itself or an escape. -/
theorem mem_writeChar {c d : Char} (h : d ∈ writeChar c) :
    d = c ∧ 0x20 ≤ c.toNat ∨ d ∈ escapeChars := by
  -- one fact for all control characters, not a search in each of them
  have hdigits : ∀ n < 0x20, ['\\', 'u', '0', '0', hexChar (n / 16), hexChar (n % 16)]
      ⊆ escapeChars := by decide
  unfold writeChar at h
  split at h
  · exact .inr ((by decide : ['\\', '"'] ⊆ escapeChars) h)
  split at h
  · exact .inr ((by decide : ['\\', '\\'] ⊆ escapeChars) h)
  split at h
  · exact .inr ((by decide : ['\\', 'n'] ⊆ escapeChars) h)
  split at h
  · exact .inr ((by decide : ['\\', 'r'] ⊆ escapeChars) h)
  split at h
  · exact .inr ((by decide : ['\\', 't'] ⊆ escapeChars) h)
  split at h
  · exact .inr ((by decide : ['\\', 'b'] ⊆ escapeChars) h)
  split at h
  · exact .inr ((by decide : ['\\', 'f'] ⊆ escapeChars) h)
  split at h
  · rename_i hlow
    exact .inr (hdigits c.toNat hlow h)
  · rename_i hlow
    exact .inl ⟨List.mem_singleton.1 h, Nat.le_of_not_lt hlow⟩

/-- What is written for a plain character is plain. -/
theorem plainChar?_writeChar {c : Char} (h : Text.plainChar? c = some c) :
    ∀ d ∈ writeChar c, Text.plainChar? d = some d := by
  have hescape : ∀ d ∈ escapeChars, Text.plainChar? d = some d :=
    Text.forall_mem_of_all (by decide)
  intro d hd
  rcases mem_writeChar hd with ⟨rfl, -⟩ | hd
  · exact h
  · exact hescape d hd

/-- No control character is written. -/
theorem le_toNat_writeChar (c : Char) : ∀ d ∈ writeChar c, 0x20 ≤ d.toNat := by
  have hescape : ∀ d ∈ escapeChars, 0x20 ≤ d.toNat := Text.forall_mem_of_all (by decide)
  intro d hd
  rcases mem_writeChar hd with ⟨rfl, hlow⟩ | hd
  · exact hlow
  · exact hescape d hd

/-- The compact form has no control characters. -/
theorem le_toNat_compact {v : Json} {depth : Nat} (h : v.IsReadable depth) :
    ∀ c ∈ v.compact, 0x20 ≤ c.toNat := by
  have hno : ∀ c ∈ ([] : Text), 0x20 ≤ c.toNat := List.forall_mem_nil _
  rw [← Layout.tight_write v 0]
  exact Layout.tight.forall_mem_write (Text.forall_mem_of_all (by decide)) (fun _ => hno) hno 0 h
    fun _ _ c _ => le_toNat_writeChar c

/-- White space of JSON is plain. -/
theorem plainChar?_of_isGap {c : Char} (hc : isGap c = true) : Text.plainChar? c = some c := by
  simp only [isGap, Bool.or_eq_true, beq_iff_eq, or_assoc] at hc
  rcases hc with rfl | rfl | rfl | rfl
  all_goals decide

/-- A value with plain texts is plain in every layout. -/
theorem Layout.plainQuotes_write (l : Layout) {v : Json} (level : Nat) {depth : Nat}
    (h : v.IsReadable depth) (hplain : ∀ t ∈ v.texts, t.plainQuotes = t) :
    (l.write level v).plainQuotes = l.write level v := by
  apply Text.plainQuotes_eq_self
  exact l.forall_mem_write (Text.forall_mem_of_all (by decide))
    (fun level c hc => plainChar?_of_isGap (l.isGap_line level c hc))
    (fun c hc => plainChar?_of_isGap (l.isGap_space c hc)) level h
    fun t ht c hc => plainChar?_writeChar (Text.plainChar?_of_plainQuotes (hplain t ht) c hc)

theorem plainQuotes_compact {v : Json} {depth : Nat} (h : v.IsReadable depth)
    (hplain : ∀ t ∈ v.texts, t.plainQuotes = t) : v.compact.plainQuotes = v.compact := by
  have hwrite := Layout.tight.plainQuotes_write 0 h hplain
  rwa [Layout.tight_write] at hwrite

section Cut

variable {v : Json} (h : v.IsReadable maxDepth) (hv : v.isBracketed = true)

include h hv

/-- What the compact form of a bracketed value starts with has no fences. -/
theorem withoutFences_of_prefix_compact {t : Text} (ht : t <+: v.compact) : t.withoutFences = t := by
  obtain ⟨c, u, hcompact, hopen⟩ := exists_compact_opener hv
  cases t with
  | nil => rfl
  | cons d t =>
    -- a value is written on one line, and this line opens with its bracket
    have hlf : Text.lf ∉ d :: t := by
      intro hmem
      have hlow := le_toNat_compact h Text.lf (ht.subset hmem)
      revert hlow
      decide
    obtain rfl : d = c := by
      rw [hcompact] at ht
      exact (List.cons_prefix_cons.1 ht).1
    have hvisible := (isBlank_of_isOpener hopen).1
    have hfence : ¬ Text.fence <+: Text.trimStart (d :: t) := by
      rw [Text.trimStart, List.dropWhile_cons_of_neg (by simp [hvisible])]
      intro hprefix
      obtain rfl : '\x60' = d := (List.cons_prefix_cons.1 hprefix).1
      cases hopen
    exact Text.withoutFences_eq_self (List.cons_ne_nil d t) hlf hfence

/-- The compact form of a bracketed value is recovered as it is. -/
theorem recover?_compact (hplain : ∀ t ∈ v.texts, t.plainQuotes = t) :
    recover? v.compact = some v.asRead := by
  -- nothing follows the brackets, so the whole text is taken
  have hbalanced := balanced?_compact h hv []
  rw [List.append_nil] at hbalanced
  rw [recover?, plainQuotes_compact h hplain,
    withoutFences_of_prefix_compact h hv (List.prefix_refl _), hbalanced]
  exact read?_compact h

/-- Nothing is recovered from the compact form of a bracketed value when some of it is cut off. -/
theorem recover?_eq_none_of_cut (hplain : ∀ t ∈ v.texts, t.plainQuotes = t) {t : Text}
    (ht : t <+: v.compact) (hne : t ≠ v.compact) : recover? t = none := by
  have hchars := Text.plainChar?_of_plainQuotes (plainQuotes_compact h hplain)
  have hquotes : t.plainQuotes = t := Text.plainQuotes_eq_self fun c hc => hchars c (ht.subset hc)
  have hbalanced : Text.balanced? t = none := by
    cases htake : Text.balanced? t with
    | none => rfl
    | some w =>
      -- the same value would be found in the whole form, which is longer
      obtain ⟨rest, hrest⟩ := ht
      have hwhole := Text.balanced?_append htake rest
      have hall := balanced?_compact h hv []
      rw [hrest] at hwhole
      rw [List.append_nil, hwhole] at hall
      have hlength := Text.length_balanced?_le htake
      rw [Option.some.inj hall] at hlength
      exact absurd (List.IsPrefix.eq_of_length_le ⟨rest, hrest⟩ hlength) hne
  rw [recover?, hquotes, withoutFences_of_prefix_compact h hv ht, hbalanced]

end Cut

end Json

end Mend
