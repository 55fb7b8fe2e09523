import Mend.Json.Reader
import Mend.Json.Writer

/-!
# Reading the parts of JSON

The text of a value is read character by character (`Json.readText_writeChar`), up to the quote that
closes it (`Json.readText_flatMap_writeChar`). White space in front of a value, of items and of
members is skipped (`Json.readValue_append`).
-/

namespace Mend

namespace Json

/-! ## Texts -/

@[simp]
theorem readText_quote (rest : Text) : readText ('"' :: rest) = some ([], rest) := by
  rw [readText]

/-- An escape of one letter. -/
theorem readText_escape {c d : Char} (h : escape? c = some d) (rest : Text) :
    readText ('\\' :: c :: rest) = (readText rest).map fun p => (d :: p.1, p.2) := by
  have hu : c ≠ 'u' := by
    rintro rfl
    cases h
  -- the equation of one letter needs that the two of `\u` do not apply
  rw [readText, h]
  · cases readText rest <;> rfl
  · intro _ _ _ _ _ _ _ _ _ hc
    exact absurd hc hu
  · intro _ _ _ _ _ hc
    exact absurd hc hu

/-- An escape of four hexadecimal digits that is no half of a pair. -/
theorem readText_unicode {a b c d : Char} {n : Nat} (h : hex4? a b c d = some n)
    (hhigh : isHighSurrogate n = false) (hlow : isLowSurrogate n = false) (rest : Text) :
    readText ('\\' :: 'u' :: a :: b :: c :: d :: rest)
      = (readText rest).map fun p => (Char.ofNat n :: p.1, p.2) := by
  by_cases hpair : ∃ e f g k more, rest = '\\' :: 'u' :: e :: f :: g :: k :: more
  · -- the reader looks at the next escape, but does not take it
    obtain ⟨e, f, g, k, more, rfl⟩ := hpair
    rw [readText, h]
    simp only [Option.bind_eq_bind, Option.bind_some, hhigh, hlow, Bool.false_eq_true, if_false]
    cases readText ('\\' :: 'u' :: e :: f :: g :: k :: more) <;> rfl
  · rw [readText, h]
    · simp only [Option.bind_eq_bind, Option.bind_some, hhigh, hlow, Bool.or_self,
        Bool.false_eq_true, if_false]
      cases readText rest <;> rfl
    · intro e f g k more heq
      exact hpair ⟨e, f, g, k, more, heq⟩

/-- A character that needs no escape. -/
theorem readText_plain {c : Char} (hquote : c ≠ '"') (hslash : c ≠ '\\') (hlow : ¬ c.toNat < 0x20)
    (rest : Text) : readText (c :: rest) = (readText rest).map fun p => (c :: p.1, p.2) := by
  rw [readText]
  · simp only [hlow, decide_false, beq_eq_false_iff_ne.2 hslash, Bool.or_self,
      Bool.false_eq_true, if_false]
    cases readText rest <;> rfl
  · exact fun h => hquote h
  all_goals
    intros
    exact absurd ‹c = _› hslash

/-- The digits of a control character. -/
theorem hex4?_control : ∀ n < 0x20, hex4? '0' '0' (hexChar (n / 16)) (hexChar (n % 16)) = some n := by
  decide

/-- What is written for a character reads as that character. -/
theorem readText_writeChar (c : Char) (rest : Text) :
    readText (writeChar c ++ rest) = (readText rest).map fun p => (c :: p.1, p.2) := by
  unfold writeChar
  split
  · rename_i h
    subst h
    exact readText_escape rfl rest
  split
  · rename_i h
    subst h
    exact readText_escape rfl rest
  split
  · rename_i h
    subst h
    exact readText_escape rfl rest
  split
  · rename_i h
    subst h
    exact readText_escape rfl rest
  split
  · rename_i h
    subst h
    exact readText_escape rfl rest
  split
  · rename_i h
    have hc : c = Char.ofNat 8 := by rw [← h, Char.ofNat_toNat]
    subst hc
    exact readText_escape rfl rest
  split
  · rename_i h
    have hc : c = Char.ofNat 12 := by rw [← h, Char.ofNat_toNat]
    subst hc
    exact readText_escape rfl rest
  split
  -- the other control characters are written with four digits
  · rename_i h
    -- such a character is far below the halves of pairs
    have hhigh : isHighSurrogate c.toNat = false := by
      simp only [isHighSurrogate, Bool.and_eq_false_iff, decide_eq_false_iff_not]
      omega
    have hlow : isLowSurrogate c.toNat = false := by
      simp only [isLowSurrogate, Bool.and_eq_false_iff, decide_eq_false_iff_not]
      omega
    have hread := readText_unicode (hex4?_control c.toNat h) hhigh hlow rest
    rwa [Char.ofNat_toNat] at hread
  · rename_i hquote hslash _ _ _ _ _ hlow
    exact readText_plain hquote hslash hlow rest

/-- What is written for a text reads as that text. -/
theorem readText_flatMap_writeChar (t rest : Text) :
    readText (t.flatMap writeChar ++ '"' :: rest) = some (t, rest) := by
  induction t with
  | nil => exact readText_quote rest
  | cons c t ih =>
    rw [List.flatMap_cons, List.append_assoc, readText_writeChar, ih]
    rfl

/-! ## Gaps -/

theorem skipGap_cons {c : Char} (h : isGap c = false) (t : Text) : skipGap (c :: t) = c :: t := by
  simp [skipGap, h]

section Gap

variable {gap : Text} (h : ∀ c ∈ gap, isGap c = true) (fuel depth : Nat) (t : Text)

include h

theorem skipGap_append : skipGap (gap ++ t) = skipGap t := List.dropWhile_append_of_pos h

theorem readValue_append : readValue fuel depth (gap ++ t) = readValue fuel depth t := by
  cases fuel with
  | zero => rw [readValue, readValue]
  | succ fuel => rw [readValue, readValue, skipGap_append h]

theorem readItems_append : readItems fuel depth (gap ++ t) = readItems fuel depth t := by
  cases fuel with
  | zero => rw [readItems, readItems]
  | succ fuel => rw [readItems, readItems, readValue_append h]

theorem readMembers_append : readMembers fuel depth (gap ++ t) = readMembers fuel depth t := by
  cases fuel with
  | zero => rw [readMembers, readMembers]
  | succ fuel => rw [readMembers, readMembers, skipGap_append h]

end Gap

/-! ## Brackets -/

/-- An array with items. -/
theorem readValue_array {fuel depth : Nat} {c : Char} {t t' : Text} (hskip : skipGap t = c :: t')
    (hclose : c ≠ ']') : readValue (fuel + 1) (depth + 1) ('[' :: t)
      = (readItems fuel depth (c :: t')).map fun p => (array p.1, p.2) := by
  -- neither the bracket nor the first character of an item is skipped as a gap
  have hopen : isGap '[' = false := by decide
  rw [readValue, skipGap_cons hopen]
  simp only [hskip]
  split
  · simp_all
  · rfl

/-- An object with members. -/
theorem readValue_object {fuel depth : Nat} {t t' : Text} (hskip : skipGap t = '"' :: t') :
    readValue (fuel + 1) (depth + 1) ('\x7b' :: t)
      = (readMembers fuel depth ('"' :: t')).map fun p => (ofMembers p.1, p.2) := by
  have hopen : isGap '\x7b' = false := by decide
  rw [readValue, skipGap_cons hopen]
  simp only [hskip]
  rfl

end Json

end Mend
