import Mend.Proofs.Json.Nesting

/-!
# JSON texts

The grammar of JSON as it stands in the standard, without values (`Json.IsJson`). The reader accepts no
other text (`Json.isPadded_of_read?`). It does not accept all of them, as in the standard values nest as
deep as they like, numbers have any size, and an escape may write half of a surrogate pair.

The brackets of a JSON text are balanced, since the grammar closes each bracket that it opens and the
quotes of a text enclose what is between them (`Json.IsJson.balanced`). So an array or an object is
what its first bracket encloses, and the scanner of brackets takes all of it.

Main statement: the scanner finds the first value of the grammar of brackets, and all of a JSON array or
object (`Text.balanced?_exact`).
-/

namespace Mend

namespace Json

open Nesting

/-! ## The grammar -/

/-- What stands between the quotes of a JSON text. -/
inductive IsBody : Text → Prop
  | nil : IsBody []
  | plain {c : Char} {t : Text} : c ≠ '"' → c ≠ '\\' → 0x20 ≤ c.toNat → IsBody t → IsBody (c :: t)
  | letter {c : Char} {t : Text} : c ∈ ['"', '\\', '/', 'b', 'f', 'n', 'r', 't'] → IsBody t →
      IsBody ('\\' :: c :: t)
  | unicode {digits t : Text} : digits.length = 4 → (∀ c ∈ digits, (hexDigit? c).isSome) →
      IsBody t → IsBody ('\\' :: 'u' :: (digits ++ t))

mutual

/-- The text is one JSON value without white space around it. -/
inductive IsJson : Text → Prop
  | word {w : Text} : w ∈ ["null".toList, "true".toList, "false".toList] → IsJson w
  | number {w : Text} : JsonNumber.IsNumeral w → IsJson w
  | text {t : Text} : IsBody t → IsJson ('"' :: (t ++ ['"']))
  | bracketed {w : Text} : IsBracketed w → IsJson w

/-- The text is one JSON array or object without white space around it. -/
inductive IsBracketed : Text → Prop
  | emptyArray {gap : Text} : IsGap gap → IsBracketed ('[' :: (gap ++ [']']))
  | array {w : Text} : AreItems w → IsBracketed ('[' :: (w ++ [']']))
  | emptyObject {gap : Text} : IsGap gap → IsBracketed ('\x7b' :: (gap ++ ['\x7d']))
  | object {w : Text} : AreMembers w → IsBracketed ('\x7b' :: (w ++ ['\x7d']))

/-- The text is one JSON value with white space around it. -/
inductive IsPadded : Text → Prop
  | mk {gap w gap' : Text} : IsGap gap → IsJson w → IsGap gap' → IsPadded (gap ++ (w ++ gap'))

/-- The text is values with commas between them. -/
inductive AreItems : Text → Prop
  | last {w : Text} : IsPadded w → AreItems w
  | more {w u : Text} : IsPadded w → AreItems u → AreItems (w ++ ',' :: u)

/-- The text is members, each a name and a value, with commas between them. -/
inductive AreMembers : Text → Prop
  | last {gap t gap' w : Text} : IsGap gap → IsBody t → IsGap gap' → IsPadded w →
      AreMembers (gap ++ '"' :: (t ++ '"' :: (gap' ++ ':' :: w)))
  | more {gap t gap' w u : Text} : IsGap gap → IsBody t → IsGap gap' → IsPadded w → AreMembers u →
      AreMembers (gap ++ '"' :: (t ++ '"' :: (gap' ++ ':' :: (w ++ ',' :: u))))

end

/-! ## Brackets -/

/-- No quote, no bracket and no brace. -/
theorem balanced_cons {c : Char} {t : Text} (hc : c ∉ specialChars) (ht : Balanced t) :
    Balanced (c :: t) := by
  simp only [specialChars, List.mem_cons, List.not_mem_nil, or_false, not_or] at hc
  obtain ⟨hquote, hopen, hclose, hbrace, hunbrace, -⟩ := hc
  exact .plain hquote (by simp [isOpener, hopen, hbrace]) (by simp [isCloser, hclose, hunbrace]) ht

theorem balanced_of_forall {t : Text} (h : ∀ c ∈ t, c ∉ specialChars) : Balanced t := by
  induction t with
  | nil => exact .nil
  | cons c t ih =>
    rw [List.forall_mem_cons] at h
    exact balanced_cons h.1 (ih h.2)

theorem balanced_gap {gap : Text} (h : IsGap gap) : Balanced gap :=
  balanced_of_forall fun c hc => notMem_specialChars_of_isGap (h c hc)

/-- What stands between the quotes of a text closes no quote. -/
theorem IsBody.inner {t : Text} (h : IsBody t) : Inner t := by
  induction h with
  | nil => exact .nil
  | plain hquote hslash _ _ ih => exact .plain hquote hslash ih
  | letter _ _ ih => exact .escape ih
  | unicode _ hdigits _ ih =>
    -- the digits stand behind the escape and are characters like others
    refine .escape (inner_of_forall (fun c hc => ?_) |>.append ih)
    obtain ⟨n, hn⟩ := Option.isSome_iff_exists.1 (hdigits c hc)
    exact ne_of_hexDigit? hn

/-- Quotes with what they enclose, before a balanced text. -/
theorem IsBody.balanced {t u : Text} (h : IsBody t) (hu : Balanced u) :
    Balanced ('"' :: (t ++ '"' :: u)) :=
  .quoted h.inner hu

mutual

/-- The brackets of a JSON value are balanced. -/
theorem IsJson.balanced : ∀ {w : Text}, IsJson w → Balanced w
  | _, .word hw => by
    have hplain : ∀ w ∈ ["null".toList, "true".toList, "false".toList],
        w.all (fun c => decide (c ∉ specialChars)) = true := by decide
    exact balanced_of_forall (Text.forall_mem_of_all (hplain _ hw))
  | _, .number hw => balanced_of_forall fun c hc =>
    notMem_specialChars_of_isNumeralChar (hw.forall_isNumeralChar c hc)
  | _, .text ht => ht.balanced .nil
  | _, .bracketed hw => hw.enclosed.balanced

/-- An array or an object is what its first bracket encloses. -/
theorem IsBracketed.enclosed : ∀ {w : Text}, IsBracketed w → Enclosed w
  | _, .emptyArray hgap => .mk (c := '[') rfl (balanced_gap hgap)
  | _, .array hitems => .mk (c := '[') rfl hitems.balanced
  | _, .emptyObject hgap => .mk (c := '\x7b') rfl (balanced_gap hgap)
  | _, .object hmembers => .mk (c := '\x7b') rfl hmembers.balanced

theorem IsPadded.balanced : ∀ {w : Text}, IsPadded w → Balanced w
  | _, .mk hgap hw hback => (balanced_gap hgap).append (hw.balanced.append (balanced_gap hback))

theorem AreItems.balanced : ∀ {w : Text}, AreItems w → Balanced w
  | _, .last hw => hw.balanced
  | _, .more hw hitems => hw.balanced.append (balanced_cons (by decide) hitems.balanced)

theorem AreMembers.balanced : ∀ {w : Text}, AreMembers w → Balanced w
  | _, .last hgap ht hgap' hw => by
    have hvalue := balanced_cons (c := ':') (by decide) hw.balanced
    exact (balanced_gap hgap).append (ht.balanced ((balanced_gap hgap').append hvalue))
  | _, .more hgap ht hgap' hw hmembers => by
    have hmore := balanced_cons (c := ',') (by decide) hmembers.balanced
    have hvalue := balanced_cons (c := ':') (by decide) (hw.balanced.append hmore)
    exact (balanced_gap hgap).append (ht.balanced ((balanced_gap hgap').append hvalue))

end

/-! ## What the reader accepts -/

theorem mem_letters_of_escape? {c d : Char} (h : escape? c = some d) :
    c ∈ ['"', '\\', '/', 'b', 'f', 'n', 'r', 't'] := by
  unfold escape? at h
  split at h
  -- each letter is in the list, and no other character has an escape
  all_goals first
    | decide
    | cases h

/-- Four digits that are read stand behind an escape. -/
theorem IsBody.hex4 {a b c d : Char} {n : Nat} {t : Text} (h : hex4? a b c d = some n)
    (ht : IsBody t) : IsBody ('\\' :: 'u' :: a :: b :: c :: d :: t) := by
  obtain ⟨_, ha, h⟩ := Option.bind_eq_some_iff.1 h
  obtain ⟨_, hb, h⟩ := Option.bind_eq_some_iff.1 h
  obtain ⟨_, hc, h⟩ := Option.bind_eq_some_iff.1 h
  obtain ⟨_, hd, -⟩ := Option.bind_eq_some_iff.1 h
  have hdigits : ∀ x ∈ [a, b, c, d], (hexDigit? x).isSome := by simp [ha, hb, hc, hd]
  exact @IsBody.unicode [a, b, c, d] t rfl hdigits ht

theorem SpellsText.exists_isBody {w s : Text} (h : SpellsText w s) :
    ∃ t, w = t ++ ['"'] ∧ IsBody t := by
  induction h with
  | close => exact ⟨[], rfl, .nil⟩
  | plain hquote hslash hcode _ ih =>
    obtain ⟨t, rfl, ht⟩ := ih
    exact ⟨_ :: t, rfl, .plain hquote hslash hcode ht⟩
  | letter hescape _ ih =>
    obtain ⟨t, rfl, ht⟩ := ih
    exact ⟨_ :: _ :: t, rfl, .letter (mem_letters_of_escape? hescape) ht⟩
  | unicode hhex _ _ _ ih =>
    obtain ⟨t, rfl, ht⟩ := ih
    exact ⟨_ :: _ :: _ :: _ :: _ :: _ :: t, rfl, .hex4 hhex ht⟩
  | pair hhigh _ hlow _ _ ih =>
    obtain ⟨t, rfl, ht⟩ := ih
    exact ⟨_ :: _ :: _ :: _ :: _ :: _ :: _ :: _ :: _ :: _ :: _ :: _ :: t, rfl,
      .hex4 hhigh (.hex4 hlow ht)⟩

theorem SpellsName.exists_isBody {k name : Text} (h : SpellsName k name) :
    ∃ gap t gap', k = gap ++ '"' :: (t ++ '"' :: gap') ∧ IsGap gap ∧ IsBody t ∧ IsGap gap' := by
  obtain ⟨hgap, hw, hgap'⟩ := h
  obtain ⟨t, rfl, ht⟩ := hw.exists_isBody
  exact ⟨_, t, _, by simp, hgap, ht, hgap'⟩

mutual

/-- What spells a value is a JSON value. -/
theorem Spells.isJson : ∀ {depth : Nat} {w : Text} {v : Json}, Spells depth w v → IsJson w
  | _, _, _, .null => .word (by simp)
  | _, _, _, .yes => .word (by simp)
  | _, _, _, .no => .word (by simp)
  | _, _, _, .number hn => by
    obtain ⟨x, hx, hnumeral⟩ := JsonNumber.exists_isNumeral_of_read? hn
    rw [hx, List.append_nil]
    exact .number hnumeral
  | _, _, _, .text hw => by
    obtain ⟨t, rfl, ht⟩ := hw.exists_isBody
    exact .text ht
  | _, _, _, .emptyArray hgap => .bracketed (.emptyArray hgap)
  | _, _, _, .array hitems => .bracketed (.array hitems.areItems)
  | _, _, _, .emptyObject hgap => .bracketed (.emptyObject hgap)
  | _, _, _, .object hmembers => .bracketed (.object hmembers.areMembers)

theorem SpellsPadded.isPadded : ∀ {depth : Nat} {w : Text} {v : Json}, SpellsPadded depth w v →
    IsPadded w
  | _, _, _, .mk hgap hw hback => .mk hgap hw.isJson hback

theorem SpellsItems.areItems : ∀ {depth : Nat} {w : Text} {vs : List Json}, SpellsItems depth w vs →
    AreItems w
  | _, _, _, .last hw => .last hw.isPadded
  | _, _, _, .more hw hitems => .more hw.isPadded hitems.areItems

theorem SpellsMembers.areMembers : ∀ {depth : Nat} {w : Text} {ms : List (Text × Json)},
    SpellsMembers depth w ms → AreMembers w
  | _, _, _, .last hk hw => by
    obtain ⟨gap, t, gap', rfl, hgap, ht, hgap'⟩ := hk.exists_isBody
    have hlast := AreMembers.last hgap ht hgap' hw.isPadded
    simpa using hlast
  | _, _, _, .more hk hw hmembers => by
    obtain ⟨gap, t, gap', rfl, hgap, ht, hgap'⟩ := hk.exists_isBody
    have hmore := AreMembers.more hgap ht hgap' hw.isPadded hmembers.areMembers
    simpa using hmore

end

/-- The reader accepts no text but a JSON value with white space around it. -/
theorem isPadded_of_read? {t : Text} {v : Json} (h : read? t = some v) : IsPadded t :=
  (read?_eq_some_iff.1 h).isPadded

end Json

namespace Text

open Nesting Json

/-- What is found in a text is its first bracketed value, which is what its first bracket encloses. Of
such values there is one at most, and what is found of an array or an object is all of it. -/
theorem balanced?_exact :
    (∀ t w : Text, balanced? t = some w ↔ FirstValue w (fromOpener t)) ∧
      (∀ t w : Text, FirstValue w t ↔ w <+: t ∧ Enclosed w) ∧
      (∀ t v w : Text, FirstValue v t → FirstValue w t → v = w) ∧
      (∀ t : Text, balanced? t = none ↔ (∀ c ∈ t, isOpener c = false) ∨ Fails (fromOpener t)) ∧
      ∀ w : Text, IsBracketed w → balanced? w = some w := by
  refine ⟨fun t w => balanced?_eq_some_iff, fun t w => firstValue_iff,
    fun t v w => FirstValue.eq, fun t => balanced?_eq_none_iff, fun w hw => ?_⟩
  have henclosed := hw.enclosed
  have hfrom : fromOpener w = w := by
    obtain ⟨hopen, -⟩ := henclosed
    simp [fromOpener, hopen]
  rw [balanced?_eq_some_iff, hfrom, firstValue_iff]
  exact ⟨List.prefix_refl w, henclosed⟩

/-- An array with a bracket between quotes and one too many behind it, and one that holds half of a
surrogate pair. -/
theorem balanced?_exact_sample :
    FirstValue "[\"]\",\x7b\x7d]".toList (fromOpener "so [\"]\",\x7b\x7d]]".toList) ∧
      balanced? "so [\"]\",\x7b\x7d]]".toList = some "[\"]\",\x7b\x7d]".toList ∧
      IsBracketed "[\"\\uD800\"]".toList ∧
      balanced? "[\"\\uD800\"]".toList = some "[\"\\uD800\"]".toList := by
  obtain ⟨hfound, hfirst, -, -, hjson⟩ := balanced?_exact
  -- the bracket between quotes is no bracket, and the braces are balanced
  have hquoted : Inner [']'] := .plain (by decide) (by decide) .nil
  have hbraces : Balanced ['\x7b', '\x7d'] := .brackets (c := '\x7b') rfl .nil .nil
  have hitems : Balanced "\"]\",\x7b\x7d".toList :=
    .quoted hquoted (.plain (by decide) rfl rfl hbraces)
  have hvalue : FirstValue "[\"]\",\x7b\x7d]".toList (fromOpener "so [\"]\",\x7b\x7d]]".toList) :=
    (hfirst _ _).2 ⟨⟨[']'], rfl⟩, .mk (c := '[') rfl hitems⟩
  have hbody : IsBody "\\uD800".toList :=
    @IsBody.unicode "D800".toList [] rfl (forall_mem_of_all (by decide)) .nil
  have hpadded : IsPadded "\"\\uD800\"".toList :=
    @IsPadded.mk [] _ [] isGap_nil (.text hbody) isGap_nil
  have harray : IsBracketed "[\"\\uD800\"]".toList := .array (.last hpadded)
  exact ⟨hvalue, (hfound _ _).2 hvalue, harray, hjson _ harray⟩

end Text

end Mend
