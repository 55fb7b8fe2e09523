import Mend.Proofs.Json.RoundTrip

/-!
# Brackets of values

The scanner of brackets goes over a value without closing the brackets around it (`Nesting.Passes`,
`Json.KeepsNesting`); brackets inside texts do not count, since a text is passed between its quotes.
So a bracketed value is the first one of a text that starts with it (`Json.Spells.balanced?_append`).

That is put together over the parts of a value, as is what else is needed of its spelling
(`Json.JoinsSpelling`).
-/

namespace Mend

namespace Nesting

/-! ## The scanner -/

/-- The scanner goes over a text from one state to another without closing every bracket. -/
def Passes (s : Nesting) (t : Text) (s' : Nesting) : Prop :=
  ∀ rest, s.take? (t ++ rest) = (s'.take? rest).map (t ++ ·)

theorem passes_nil (s : Nesting) : Passes s [] s := by
  intro rest
  cases h : s.take? rest <;> simp [h]

/-- A text after another one. -/
theorem Passes.append {s s' s'' : Nesting} {t u : Text} (h : Passes s t s') (h' : Passes s' u s'') :
    Passes s (t ++ u) s'' := by
  intro rest
  rw [List.append_assoc, h, h', Option.map_map]
  congr 1
  funext more
  simp

/-- A character in front of a text. -/
theorem Passes.cons {s s' s'' : Nesting} {c : Char} {t : Text} (hstep : s.step? c = some s')
    (hopen : s'.isClosed = false) (h : Passes s' t s'') : Passes s (c :: t) s'' := by
  intro rest
  rw [List.cons_append, take?, hstep]
  simp only [hopen, Bool.false_eq_true, if_false]
  rw [h, Option.map_map]
  rfl

/-- What is taken from a text is taken from a longer one. -/
theorem take?_append {s : Nesting} {t w : Text} (h : s.take? t = some w) (rest : Text) :
    s.take? (t ++ rest) = some w := by
  induction t generalizing s w with
  | nil => cases h
  | cons c t ih =>
    rw [take?] at h
    rw [List.cons_append, take?]
    cases hstep : s.step? c with
    | none =>
      rw [hstep] at h
      cases h
    | some next =>
      rw [hstep] at h
      dsimp only at h ⊢
      split
      · rename_i hclosed
        rwa [if_pos hclosed] at h
      · rename_i hclosed
        rw [if_neg hclosed] at h
        obtain ⟨u, hu, hcons⟩ := Option.map_eq_some_iff.1 h
        rw [ih hu, Option.map_some, hcons]

/-- What is taken from a text starts it. -/
theorem prefix_of_take? {s : Nesting} {t w : Text} (h : s.take? t = some w) : w <+: t := by
  induction t generalizing s w with
  | nil => cases h
  | cons c t ih =>
    rw [take?] at h
    cases hstep : s.step? c with
    | none =>
      rw [hstep] at h
      cases h
    | some next =>
      rw [hstep] at h
      dsimp only at h
      split at h
      · obtain rfl : [c] = w := Option.some.inj h
        exact ⟨t, rfl⟩
      · obtain ⟨u, hu, rfl⟩ := Option.map_eq_some_iff.1 h
        exact (List.cons_prefix_cons).2 ⟨rfl, ih hu⟩

/-- The scanner inside brackets and outside texts. -/
def inside (stack : Text) : Nesting := ⟨stack, false, false⟩

/-- The scanner inside a text. -/
def quoting (stack : Text) : Nesting := ⟨stack, true, false⟩

/-- A character of a text that is no quote and no backslash. -/
theorem step?_quoting {stack : Text} {c : Char} (hquote : c ≠ '"') (hslash : c ≠ '\\') :
    (quoting stack).step? c = some (quoting stack) := by
  simp [step?, quoting, hquote, hslash]

/-- An escape of one letter. -/
theorem passes_escape (stack : Text) (c : Char) :
    Passes (quoting stack) ['\\', c] (quoting stack) := by
  have hlast : Passes ⟨stack, true, true⟩ [c] (quoting stack) :=
    Passes.cons rfl (by simp [isClosed]) (passes_nil _)
  exact Passes.cons rfl (by simp [isClosed, quoting]) hlast

/-- Characters of a text that need no escape. -/
theorem passes_plain {stack : Text} {t : Text} (h : ∀ c ∈ t, c ≠ '"' ∧ c ≠ '\\') :
    Passes (quoting stack) t (quoting stack) := by
  induction t with
  | nil => exact passes_nil _
  | cons c t ih =>
    obtain ⟨hquote, hslash⟩ := h c (List.mem_cons_self ..)
    refine Passes.cons (step?_quoting hquote hslash) (by simp [isClosed, quoting]) ?_
    exact ih fun d hd => h d (List.mem_cons_of_mem _ hd)

/-- A character between tokens. -/
theorem passes_token {stack : Text} (hstack : stack ≠ []) {c : Char}
    (h : c ∉ ['"', '[', ']', '\x7b', '\x7d']) : Passes (inside stack) [c] (inside stack) := by
  simp only [List.mem_cons, List.not_mem_nil, or_false, not_or] at h
  obtain ⟨hquote, hopen, hclose, hbrace, hunbrace⟩ := h
  refine Passes.cons ?_ (by simp [isClosed, inside, hstack]) (passes_nil _)
  simp [step?, inside, isOpener, hquote, hopen, hclose, hbrace, hunbrace]

/-- No bracket is a blank. -/
theorem isBlank_of_isOpener {c : Char} (h : isOpener c = true) :
    Text.isBlank c = false ∧ Text.isBlank (closerOf c) = false := by
  obtain rfl | rfl : c = '[' ∨ c = '\x7b' := by simpa [isOpener] using h
  · decide
  · decide

theorem step?_opener {c : Char} (h : isOpener c = true) (stack : Text) :
    (inside stack).step? c = some (inside (c :: stack)) := by
  obtain rfl | rfl : c = '[' ∨ c = '\x7b' := by simpa [isOpener] using h
  · rfl
  · rfl

theorem step?_closer {c : Char} (h : isOpener c = true) (stack : Text) :
    (inside (c :: stack)).step? (closerOf c) = some (inside stack) := by
  obtain rfl | rfl : c = '[' ∨ c = '\x7b' := by simpa [isOpener] using h
  · rfl
  · rfl

/-- An opening bracket, what stands in the brackets and the closing bracket. -/
theorem passes_brackets {stack : Text} (hstack : stack ≠ []) {c : Char}
    (hopen : isOpener c = true) {t : Text} (h : Passes (inside (c :: stack)) t (inside (c :: stack))) :
    Passes (inside stack) (c :: t ++ [closerOf c]) (inside stack) := by
  have hclose : Passes (inside (c :: stack)) [closerOf c] (inside stack) :=
    Passes.cons (step?_closer hopen stack) (by simp [isClosed, inside, hstack]) (passes_nil _)
  exact Passes.cons (step?_opener hopen stack) (by simp [isClosed, inside]) (h.append hclose)

/-- The scanner outside of brackets takes a bracketed text. -/
theorem take?_brackets {c : Char} (hopen : isOpener c = true) {t : Text}
    (h : Passes (inside [c]) t (inside [c])) (rest : Text) :
    outside.take? (c :: t ++ closerOf c :: rest) = some (c :: t ++ [closerOf c]) := by
  have hclose : (inside [c]).take? (closerOf c :: rest) = some [closerOf c] := by
    rw [take?, step?_closer hopen]
    rfl
  -- the scanner does not stop before the bracket that closes the first one
  have hfirst : Passes outside (c :: t) (inside [c]) :=
    Passes.cons (step?_opener hopen []) rfl h
  rw [hfirst, hclose]
  rfl

end Nesting

namespace Text

/-- The first bracketed value of a text is that of a longer one. -/
theorem balanced?_append {t w : Text} (h : balanced? t = some w) (rest : Text) :
    balanced? (t ++ rest) = some w := by
  have hne : (t.dropWhile fun c => !Nesting.isOpener c).isEmpty = false := by
    rw [List.isEmpty_eq_false_iff]
    intro hnil
    rw [balanced?, hnil] at h
    cases h
  rw [balanced?, List.dropWhile_append, hne]
  exact Nesting.take?_append h rest

theorem length_balanced?_le {t w : Text} (h : balanced? t = some w) : w.length ≤ t.length :=
  Nat.le_trans (Nesting.prefix_of_take? h).length_le (List.dropWhile_sublist _).length_le

end Text

namespace Json

open Nesting

/-! ## What joins over the parts of a value -/

/-- The characters that stand in texts or for brackets only. -/
def specialChars : Text := ['"', '[', ']', '\x7b', '\x7d', '\x60']

/-- A property of texts that joins over texts and brackets, and holds of what stands between them. -/
structure JoinsSpelling (Q : Text → Prop) : Prop where
  nil : Q []
  append : ∀ {a b : Text}, Q a → Q b → Q (a ++ b)
  plain : ∀ {c : Char}, c ∉ specialChars → Q [c]
  text : ∀ {w s : Text}, SpellsText w s → Q ('"' :: w)
  brackets : ∀ {c : Char} {t : Text}, isOpener c = true → Q t → Q (c :: (t ++ [closerOf c]))

theorem notMem_specialChars_of_isGap {c : Char} (hc : isGap c = true) : c ∉ specialChars := by
  have hspecial : ∀ d ∈ specialChars, isGap d = false := Text.forall_mem_of_all (by decide)
  intro hmem
  rw [hspecial c hmem] at hc
  cases hc

theorem notMem_specialChars_of_isNumeralChar {c : Char} (hc : JsonNumber.isNumeralChar c = true) :
    c ∉ specialChars := by
  have hspecial : ∀ d ∈ specialChars, JsonNumber.isNumeralChar d = false :=
    Text.forall_mem_of_all (by decide)
  intro hmem
  rw [hspecial c hmem] at hc
  cases hc

section Induction

variable {Q : Text → Prop}

theorem JoinsSpelling.of_plain (hQ : JoinsSpelling Q) {t : Text} (h : ∀ c ∈ t, c ∉ specialChars) :
    Q t := by
  induction t with
  | nil => exact hQ.nil
  | cons c t ih =>
    rw [List.forall_mem_cons] at h
    exact hQ.append (hQ.plain h.1) (ih h.2)

theorem JoinsSpelling.gap (hQ : JoinsSpelling Q) {gap : Text} (h : IsGap gap) : Q gap :=
  hQ.of_plain fun c hc => notMem_specialChars_of_isGap (h c hc)

/-- A character between two texts. -/
theorem JoinsSpelling.between (hQ : JoinsSpelling Q) {c : Char} (hc : c ∉ specialChars) {a b : Text}
    (ha : Q a) (hb : Q b) : Q (a ++ c :: b) :=
  hQ.append ha (hQ.append (hQ.plain hc) hb)

theorem SpellsName.induction (hQ : JoinsSpelling Q) {k name : Text} (h : SpellsName k name) : Q k := by
  obtain ⟨hgap, hs, hback⟩ := h
  exact hQ.append (hQ.gap hgap) (hQ.append (hQ.text hs) (hQ.gap hback))

mutual

/-- What joins over the parts of a value holds of its spelling. -/
theorem Spells.induction (hQ : JoinsSpelling Q) : ∀ {depth : Nat} {w : Text} {v : Json},
    Spells depth w v → Q w
  | _, _, _, .null => hQ.of_plain (Text.forall_mem_of_all (by decide))
  | _, _, _, .yes => hQ.of_plain (Text.forall_mem_of_all (by decide))
  | _, _, _, .no => hQ.of_plain (Text.forall_mem_of_all (by decide))
  | _, _, _, .number hn => by
    obtain ⟨x, hx, hchars⟩ := JsonNumber.numeral_of_read? hn
    rw [hx, List.append_nil]
    exact hQ.of_plain fun c hc => notMem_specialChars_of_isNumeralChar (hchars c hc)
  | _, _, _, .text hs => hQ.text hs
  | _, _, _, .emptyArray hgap => hQ.brackets rfl (hQ.gap hgap)
  | _, _, _, .array hitems => hQ.brackets rfl (hitems.induction hQ)
  | _, _, _, .emptyObject hgap => hQ.brackets rfl (hQ.gap hgap)
  | _, _, _, .object hmembers => hQ.brackets rfl (hmembers.induction hQ)

theorem SpellsPadded.induction (hQ : JoinsSpelling Q) : ∀ {depth : Nat} {w : Text} {v : Json},
    SpellsPadded depth w v → Q w
  | _, _, _, .mk hgap hv hback =>
    hQ.append (hQ.gap hgap) (hQ.append (hv.induction hQ) (hQ.gap hback))

theorem SpellsItems.induction (hQ : JoinsSpelling Q) : ∀ {depth : Nat} {w : Text} {vs : List Json},
    SpellsItems depth w vs → Q w
  | _, _, _, .last hv => hv.induction hQ
  | _, _, _, .more hv hitems => hQ.between (by decide) (hv.induction hQ) (hitems.induction hQ)

theorem SpellsMembers.induction (hQ : JoinsSpelling Q) : ∀ {depth : Nat} {w : Text}
    {ms : List (Text × Json)}, SpellsMembers depth w ms → Q w
  | _, _, _, .last hk hv => hQ.between (by decide) (hk.induction hQ) (hv.induction hQ)
  | _, _, _, .more hk hv hmembers =>
    hQ.between (by decide) (hk.induction hQ)
      (hQ.between (by decide) (hv.induction hQ) (hmembers.induction hQ))

end

end Induction

/-! ## Brackets -/

theorem ne_of_hexDigit? {c : Char} {n : Nat} (h : hexDigit? c = some n) : c ≠ '"' ∧ c ≠ '\\' := by
  constructor
  · rintro rfl
    cases h
  · rintro rfl
    cases h

/-- The scanner stays in a text while it goes over four digits. -/
theorem passes_hex4? {a b c d : Char} {n : Nat} (h : hex4? a b c d = some n) (stack : Text) :
    Passes (quoting stack) [a, b, c, d] (quoting stack) := by
  obtain ⟨_, ha, h⟩ := Option.bind_eq_some_iff.1 h
  obtain ⟨_, hb, h⟩ := Option.bind_eq_some_iff.1 h
  obtain ⟨_, hc, h⟩ := Option.bind_eq_some_iff.1 h
  obtain ⟨_, hd, -⟩ := Option.bind_eq_some_iff.1 h
  refine passes_plain ?_
  simp only [List.forall_mem_cons]
  exact ⟨ne_of_hexDigit? ha, ne_of_hexDigit? hb, ne_of_hexDigit? hc, ne_of_hexDigit? hd,
    List.forall_mem_nil _⟩

/-- The scanner leaves a text at its closing quote. -/
theorem SpellsText.passes {w s : Text} (h : SpellsText w s) {stack : Text} (hstack : stack ≠ []) :
    Passes (quoting stack) w (inside stack) := by
  induction h with
  | close => exact Passes.cons rfl (by simp [isClosed, quoting, hstack]) (passes_nil _)
  | plain hquote hslash _ _ ih =>
    exact Passes.cons (step?_quoting hquote hslash) (by simp [isClosed, quoting]) ih
  | letter _ _ ih => exact (passes_escape stack _).append ih
  | unicode hn _ _ _ ih =>
    exact (passes_escape stack 'u').append ((passes_hex4? hn stack).append ih)
  | pair hn _ hm _ _ ih =>
    have hsecond := (passes_escape stack 'u').append ((passes_hex4? hm stack).append ih)
    exact (passes_escape stack 'u').append ((passes_hex4? hn stack).append hsecond)

/-- The scanner inside of any brackets goes over the text. -/
def KeepsNesting (t : Text) : Prop :=
  ∀ stack : Text, stack ≠ [] → Passes (inside stack) t (inside stack)

theorem joinsSpelling_keepsNesting : JoinsSpelling KeepsNesting where
  nil := fun _ _ => passes_nil _
  append := fun ha hb stack hstack => (ha stack hstack).append (hb stack hstack)
  plain := by
    intro c hc stack hstack
    exact passes_token hstack fun hmem => hc ((by decide : ['"', '[', ']', '\x7b', '\x7d'] ⊆
      specialChars) hmem)
  text := fun hs stack hstack => Passes.cons rfl (by simp [isClosed]) (hs.passes hstack)
  brackets := by
    intro c t hopen ht stack hstack
    exact passes_brackets hstack hopen (ht (c :: stack) (List.cons_ne_nil c stack))

/-- A bracketed value starts with the bracket that its last one closes. -/
theorem Spells.exists_brackets {depth : Nat} {w : Text} {v : Json} (h : Spells depth w v)
    (hv : v.isBracketed = true) :
    ∃ c t, w = c :: (t ++ [closerOf c]) ∧ isOpener c = true ∧ KeepsNesting t := by
  have hjoins := joinsSpelling_keepsNesting
  cases h with
  | emptyArray hgap => exact ⟨'[', _, rfl, rfl, hjoins.gap hgap⟩
  | array hitems => exact ⟨'[', _, rfl, rfl, hitems.induction hjoins⟩
  | emptyObject hgap => exact ⟨'\x7b', _, rfl, rfl, hjoins.gap hgap⟩
  | object hmembers => exact ⟨'\x7b', _, rfl, rfl, hmembers.induction hjoins⟩
  | null => cases hv
  | yes => cases hv
  | no => cases hv
  | number => cases hv
  | text => cases hv

/-- A value that starts with a bracket is bracketed. -/
theorem Spells.isBracketed {depth : Nat} {w : Text} {v : Json} (h : Spells depth w v)
    (hw : w.head?.any isOpener = true) : v.isBracketed = true := by
  cases h with
  | number hn =>
    obtain ⟨c, u, rfl, hc⟩ := JsonNumber.exists_cons_of_read? hn
    have hopen : isOpener c = true := hw
    obtain rfl | rfl : c = '[' ∨ c = '\x7b' := by simpa [isOpener] using hopen
    · cases hc
    · cases hc
  | emptyArray => rfl
  | array => rfl
  | emptyObject => rfl
  | object => rfl
  | null => cases hw
  | yes => cases hw
  | no => cases hw
  | text => cases hw

/-- A bracketed value is the first one of a text that starts with it. -/
theorem Spells.balanced?_append {depth : Nat} {w : Text} {v : Json} (h : Spells depth w v)
    (hv : v.isBracketed = true) (rest : Text) : Text.balanced? (w ++ rest) = some w := by
  obtain ⟨c, t, rfl, hopen, ht⟩ := h.exists_brackets hv
  have htake := take?_brackets hopen (ht [c] (List.cons_ne_nil c [])) rest
  simpa [Text.balanced?, hopen] using htake

theorem isBracketed_asRead (v : Json) : v.asRead.isBracketed = v.isBracketed := by
  cases v <;> rfl

/-- The first bracketed value of a text that starts with one. -/
theorem balanced?_compact {v : Json} {depth : Nat} (h : v.IsReadable depth)
    (hv : v.isBracketed = true) (rest : Text) :
    Text.balanced? (v.compact ++ rest) = some v.compact := by
  have hspells := Layout.tight.spells_write v 0 depth h
  rw [Layout.tight_write] at hspells
  exact hspells.balanced?_append (v.isBracketed_asRead.trans hv) rest

end Json

end Mend
