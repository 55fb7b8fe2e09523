import Mend.Proofs.Json.Numerals
import Mend.Proofs.Text.Lines

/-!
# Whole numbers in JSON

A whole number of at most 64 bits reads as that number from the digits that are written for it
(`JsonNumber.read?_write`), since all of them are taken into the significand.
-/

namespace Mend

namespace Json

/-! ## Digits -/

/-- The value of digits behind a number. -/
def digitsValue (n : Nat) (digits : Text) : Nat :=
  digits.foldl (fun n c => n * 10 + (c.toNat - '0'.toNat)) n

theorem le_digitsValue (n : Nat) (digits : Text) : n ≤ digitsValue n digits := by
  induction digits generalizing n with
  | nil => exact Nat.le_refl n
  | cons c digits ih =>
    have hnext := ih (n * 10 + (c.toNat - '0'.toNat))
    rw [digitsValue, List.foldl_cons, ← digitsValue]
    omega

theorem digitsValue_ofNat (n : Nat) : digitsValue 0 (Text.ofNat n) = n := by
  have hvalue := Text.toNat?_ofNat n
  rw [Text.toNat?] at hvalue
  split at hvalue
  · exact Option.some.inj hvalue
  · cases hvalue

/-- A number is its only zero, or starts with another digit. -/
theorem ofNat_cases (n : Nat) : Text.ofNat n = ['0'] ∨ ∃ d digits,
    Text.ofNat n = d :: digits ∧ d.isDigit = true ∧ d ≠ '0' ∧ ∀ c ∈ digits, c.isDigit = true := by
  obtain ⟨d, digits, hdigits⟩ := List.exists_cons_of_ne_nil (Text.ofNat_ne_nil n)
  have hall : ∀ c ∈ d :: digits, c.isDigit = true := fun c hc =>
    Text.isDigit_of_mem_ofNat (hdigits ▸ hc)
  rw [List.forall_mem_cons] at hall
  by_cases hzero : d = '0'
  · subst hzero
    cases digits with
    | nil => exact .inl hdigits
    | cons e more => exact absurd hdigits (Text.ofNat_ne_zero_cons n e more)
  · exact .inr ⟨d, digits, hdigits, hall.1, hzero, hall.2⟩

end Json

namespace JsonNumber

/-- All digits of a number that fits are taken. -/
theorem takeDigits_digits {digits : Text} (hdigits : ∀ c ∈ digits, c.isDigit = true) {n : Nat}
    (hn : Json.digitsValue n digits < wordBound) (taken : Nat) :
    takeDigits n taken digits = (Json.digitsValue n digits, taken + digits.length, []) := by
  induction digits generalizing n taken with
  | nil => rfl
  | cons d digits ih =>
    rw [List.forall_mem_cons] at hdigits
    have hle := Json.le_digitsValue (n * 10 + (d.toNat - '0'.toNat)) digits
    have hnext : n * 10 + (d.toNat - '0'.toNat) < wordBound := Nat.lt_of_le_of_lt hle hn
    rw [takeDigits, if_pos hdigits.1, if_pos hnext, ih hdigits.2 hn, List.length_cons,
      Nat.add_assoc, Nat.add_comm 1]
    rfl

/-- The digits of a number that fits are read as a whole number. -/
theorem readUnsigned_ofNat {n : Nat} (hn : n < wordBound) (negative : Bool) :
    readUnsigned negative (Text.ofNat n) = some (whole negative n, []) := by
  have hvalue := Json.digitsValue_ofNat n
  rcases Json.ofNat_cases n with hzero | ⟨d, digits, hdigits, hd, hne, hall⟩
  · rw [hzero] at hvalue ⊢
    obtain rfl : 0 = n := hvalue
    rfl
  · rw [hdigits] at hvalue ⊢
    have htake := takeDigits_digits (List.forall_mem_cons.2 ⟨hd, hall⟩) (hvalue.symm ▸ hn) 0
    rw [hvalue] at htake
    rw [readUnsigned_cons, if_neg hne, if_pos hd, htake]
    rfl

/-- Whole numbers of at most 64 bits, which have one form each. -/
def IsWhole : JsonNumber → Prop
  | nat n => n < wordBound
  | neg n => 0 < n ∧ n ≤ 2 ^ 63
  | float _ => False

/-- The text of a whole number reads as that number. -/
theorem read?_write {n : JsonNumber} (h : n.IsWhole) : read? n.write = some (n, []) := by
  cases n with
  | nat n =>
    have hread := readUnsigned_ofNat h false
    obtain ⟨d, digits, hdigits⟩ := List.exists_cons_of_ne_nil (Text.ofNat_ne_nil n)
    have hd : d.isDigit = true := Text.isDigit_of_mem_ofNat (hdigits ▸ List.mem_cons_self ..)
    rw [hdigits] at hread
    rw [write, hdigits, read?]
    · exact hread
    · rintro u hu
      rw [(List.cons.inj hu).1] at hd
      cases hd
  | neg n =>
    obtain ⟨hpos, hle⟩ : 0 < n ∧ n ≤ 2 ^ 63 := h
    have hfits : n < wordBound := Nat.lt_of_le_of_lt hle (by decide)
    rw [write, read?, readUnsigned_ofNat hfits, whole]
    simp [Nat.ne_of_gt hpos, hle]
  | float x => exact absurd h id

/-- A whole number is written with digits, behind a sign if it is negative. -/
theorem forall_mem_write {P : Char → Prop} (hdigit : ∀ c, c.isDigit = true → P c) (hminus : P '-')
    {n : JsonNumber} (h : n.IsWhole) : ∀ c ∈ n.write, P c := by
  have hdigits : ∀ m, ∀ c ∈ Text.ofNat m, P c := fun m c hc =>
    hdigit c (Text.isDigit_of_mem_ofNat hc)
  cases n with
  | nat n => exact hdigits n
  | neg n => exact List.forall_mem_cons.2 ⟨hminus, hdigits n⟩
  | float x => exact absurd h id

end JsonNumber

end Mend
