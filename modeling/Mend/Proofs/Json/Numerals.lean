import Mend.Json.Number

/-!
# Where a number ends

A number is read up to the first character that no number holds (`JsonNumber.read?_append`), and what
is read is a number as the standard writes it (`JsonNumber.exists_isNumeral_of_read?`), so it holds
characters of a number only (`JsonNumber.exists_read?`).
-/

namespace Mend

namespace JsonNumber

/-- A character that a number may hold. -/
def isNumeralChar (c : Char) : Bool :=
  c.isDigit || c == '-' || c == '+' || c == '.' || c == 'e' || c == 'E'

/-- A text with which no number goes on. -/
def Ends (t : Text) : Prop := ∀ c ∈ t.head?, isNumeralChar c = false

/-- A tail may have an exponent. -/
theorem readTail_cases (negative : Bool) (significand : Nat) (exponent : Int) (t : Text) :
    (∃ r, (t = 'e' :: r ∨ t = 'E' :: r) ∧ readTail negative significand exponent t
      = readExponent negative significand exponent r) ∨
    (t.head? ≠ some 'e' ∧ t.head? ≠ some 'E' ∧ readTail negative significand exponent t
      = (scaled? negative significand exponent).map (·, t)) := by
  unfold readTail
  split
  · exact .inl ⟨_, .inl rfl, rfl⟩
  · exact .inl ⟨_, .inr rfl, rfl⟩
  · rename_i hlower hupper
    refine .inr ⟨fun hhead => ?_, fun hhead => ?_, rfl⟩
    · obtain ⟨r, rfl⟩ := List.head?_eq_some_iff.1 hhead
      exact hlower r rfl
    · obtain ⟨r, rfl⟩ := List.head?_eq_some_iff.1 hhead
      exact hupper r rfl

theorem readFraction_cons (negative : Bool) (significand : Nat) (exponent : Int) (c : Char)
    (t : Text) : readFraction negative significand exponent (c :: t) =
      if c.isDigit then
        readTail negative (takeDigits significand 0 (c :: t)).1
          (exponent - (takeDigits significand 0 (c :: t)).2.1)
          ((takeDigits significand 0 (c :: t)).2.2.dropWhile Char.isDigit)
      else none := rfl

/-- The number after a leading zero. -/
def zeroTail (negative : Bool) (t : Text) : Option (JsonNumber × Text) :=
  match t with
  | '.' :: r => readFraction negative 0 0 r
  | 'e' :: r => readExponent negative 0 0 r
  | 'E' :: r => readExponent negative 0 0 r
  | c :: r => if c.isDigit then none else some (whole negative 0, c :: r)
  | [] => some (whole negative 0, [])

/-- The number after its digits, of which the last `dropped` are not in the significand. -/
def wholeTail (negative : Bool) (significand dropped : Nat) (t : Text) :
    Option (JsonNumber × Text) :=
  match t with
  | '.' :: r => readFraction negative significand dropped r
  | r =>
    if dropped = 0 && !(r.head? = some 'e' || r.head? = some 'E') then
      some (whole negative significand, r)
    else readTail negative significand dropped r

theorem readUnsigned_cons (negative : Bool) (c : Char) (t : Text) :
    readUnsigned negative (c :: t) =
      if c = '0' then zeroTail negative t
      else if c.isDigit then
        wholeTail negative (takeDigits 0 0 (c :: t)).1
          ((takeDigits 0 0 (c :: t)).2.2.takeWhile Char.isDigit).length
          ((takeDigits 0 0 (c :: t)).2.2.dropWhile Char.isDigit)
      else none := by
  split
  · rename_i hzero
    subst hzero
    rfl
  · rename_i hzero
    unfold readUnsigned
    split
    · rename_i heq
      exact absurd (List.cons.inj heq).1 hzero
    · rename_i heq
      rw [(List.cons.inj heq).1]
      rfl
    · rename_i heq
      cases heq

/-! ## What follows a number -/

/-- The number at the digits of its exponent, after the sign. -/
def exponentDigits (negative : Bool) (significand : Nat) (exponent : Int) (down : Bool)
    (digits : Text) : Option (JsonNumber × Text) :=
  match digits.takeWhile Char.isDigit with
  | [] => none
  | shown =>
    let rest := digits.dropWhile Char.isDigit
    let k := (Text.toNat? shown).getD 0
    if k < exponentBound then
      (scaled? negative significand (if down then exponent - k else exponent + k)).map (·, rest)
    else if significand ≠ 0 && !down then none
    else some (.float (if negative then -0.0 else 0.0), rest)

/-- An exponent may have a sign. -/
theorem readExponent_cases (negative : Bool) (significand : Nat) (exponent : Int) (t : Text) :
    (∃ r, t = '+' :: r ∧ readExponent negative significand exponent t
      = exponentDigits negative significand exponent false r) ∨
    (∃ r, t = '-' :: r ∧ readExponent negative significand exponent t
      = exponentDigits negative significand exponent true r) ∨
    (t.head? ≠ some '+' ∧ t.head? ≠ some '-' ∧ readExponent negative significand exponent t
      = exponentDigits negative significand exponent false t) := by
  rcases t with _ | ⟨c, r⟩
  · exact .inr (.inr ⟨by simp, by simp, rfl⟩)
  · by_cases hplus : c = '+'
    · subst hplus
      exact .inl ⟨r, rfl, rfl⟩
    · by_cases hminus : c = '-'
      · subst hminus
        exact .inr (.inl ⟨r, rfl, rfl⟩)
      · refine .inr (.inr ⟨by simpa using hplus, by simpa using hminus, ?_⟩)
        unfold readExponent
        split
        rename_i down digits heq
        split at heq
        · simp_all
        · simp_all
        · obtain ⟨rfl, rfl⟩ := Prod.mk.inj heq
          rfl

section Ends

variable {y : Text} (h : Ends y)

include h

theorem Ends.ne_cons {c : Char} (hc : isNumeralChar c = true) (t : Text) : y ≠ c :: t := by
  rintro rfl
  rw [h c rfl] at hc
  cases hc

theorem Ends.isDigit {c : Char} (hc : c ∈ y.head?) : c.isDigit = false := by
  have hnone := h c hc
  simp only [isNumeralChar, Bool.or_eq_false_iff] at hnone
  exact hnone.1.1.1.1.1

theorem Ends.takeWhile_isDigit : y.takeWhile Char.isDigit = [] := by
  cases y with
  | nil => rfl
  | cons c y => rw [List.takeWhile_cons_of_neg (by simp [h.isDigit rfl])]

theorem takeWhile_append (x : Text) :
    (x ++ y).takeWhile Char.isDigit = x.takeWhile Char.isDigit := by
  induction x with
  | nil => exact h.takeWhile_isDigit
  | cons c x ih => by_cases hc : c.isDigit <;> simp [hc, ih]

theorem dropWhile_append (x : Text) :
    (x ++ y).dropWhile Char.isDigit = x.dropWhile Char.isDigit ++ y := by
  induction x with
  | nil =>
    have hall := List.takeWhile_append_dropWhile (p := Char.isDigit) (l := y)
    rw [h.takeWhile_isDigit] at hall
    exact hall
  | cons c x ih => by_cases hc : c.isDigit <;> simp [hc, ih]

theorem takeDigits_append_of_ends (x : Text) (significand taken : Nat) :
    takeDigits significand taken (x ++ y)
      = ((takeDigits significand taken x).1, (takeDigits significand taken x).2.1,
          (takeDigits significand taken x).2.2 ++ y) := by
  induction x generalizing significand taken with
  | nil =>
    cases y with
    | nil => rfl
    | cons c y => simp [takeDigits, h.isDigit rfl]
  | cons c x ih =>
    rw [List.cons_append, takeDigits, takeDigits]
    split
    · dsimp only
      split
      · exact ih _ _
      · rfl
    · rfl

/-- The digits of an exponent. -/
theorem exponentDigits_append (negative : Bool) (significand : Nat) (exponent : Int) (down : Bool)
    (x : Text) : exponentDigits negative significand exponent down (x ++ y)
      = (exponentDigits negative significand exponent down x).map fun p => (p.1, p.2 ++ y) := by
  unfold exponentDigits
  rw [takeWhile_append h, dropWhile_append h]
  split
  · rfl
  · dsimp only
    split
    · rw [Option.map_map]
      rfl
    · split <;> rfl

/-- What a number may go on with stands in the text itself. -/
theorem head?_append_iff {x : Text} {c : Char} (hc : isNumeralChar c = true) :
    (x ++ y).head? = some c ↔ x.head? = some c := by
  cases x with
  | nil =>
    refine ⟨fun hhead => ?_, fun hhead => by cases hhead⟩
    have hnone := h c hhead
    rw [hc] at hnone
    cases hnone
  | cons d x => exact Iff.rfl

theorem readExponent_append (negative : Bool) (significand : Nat) (exponent : Int) (x : Text) :
    readExponent negative significand exponent (x ++ y)
      = (readExponent negative significand exponent x).map fun p => (p.1, p.2 ++ y) := by
  have hdigits := exponentDigits_append h negative significand exponent
  rcases readExponent_cases negative significand exponent x with
    ⟨r, rfl, hx⟩ | ⟨r, rfl, hx⟩ | ⟨hplus, hminus, hx⟩
  · rw [hx, ← hdigits]
    rfl
  · rw [hx, ← hdigits]
    rfl
  · have hplus' := mt (head?_append_iff h (by decide)).1 hplus
    have hminus' := mt (head?_append_iff h (by decide)).1 hminus
    rcases readExponent_cases negative significand exponent (x ++ y) with
      ⟨r, hr, -⟩ | ⟨r, hr, -⟩ | ⟨-, -, hxy⟩
    · exact absurd (congrArg List.head? hr) hplus'
    · exact absurd (congrArg List.head? hr) hminus'
    · rw [hxy, hx, hdigits]

theorem readTail_append (negative : Bool) (significand : Nat) (exponent : Int) (x : Text) :
    readTail negative significand exponent (x ++ y)
      = (readTail negative significand exponent x).map fun p => (p.1, p.2 ++ y) := by
  rcases readTail_cases negative significand exponent x with
    ⟨r, hr, hx⟩ | ⟨hlower, hupper, hx⟩
  · rw [hx, ← readExponent_append h]
    rcases hr with rfl | rfl <;> rfl
  · have hlower' := mt (head?_append_iff h (by decide)).1 hlower
    have hupper' := mt (head?_append_iff h (by decide)).1 hupper
    rcases readTail_cases negative significand exponent (x ++ y) with
      ⟨r, hr | hr, -⟩ | ⟨-, -, hxy⟩
    · exact absurd (congrArg List.head? hr) hlower'
    · exact absurd (congrArg List.head? hr) hupper'
    · rw [hxy, hx, Option.map_map]
      rfl

theorem readFraction_append (negative : Bool) (significand : Nat) (exponent : Int) (x : Text) :
    readFraction negative significand exponent (x ++ y)
      = (readFraction negative significand exponent x).map fun p => (p.1, p.2 ++ y) := by
  cases x with
  | nil =>
    cases y with
    | nil => rfl
    | cons c y => simp [readFraction, h.isDigit rfl]
  | cons c x =>
    have htake := takeDigits_append_of_ends h (c :: x) significand 0
    rw [List.cons_append] at htake
    rw [List.cons_append, readFraction_cons, readFraction_cons, htake, dropWhile_append h,
      readTail_append h]
    split <;> rfl

theorem zeroTail_append (negative : Bool) (x : Text) :
    zeroTail negative (x ++ y) = (zeroTail negative x).map fun p => (p.1, p.2 ++ y) := by
  cases x with
  | nil =>
    rw [List.nil_append]
    unfold zeroTail
    split
    · exact absurd rfl (h.ne_cons (by decide) _)
    · exact absurd rfl (h.ne_cons (by decide) _)
    · exact absurd rfl (h.ne_cons (by decide) _)
    · rw [h.isDigit rfl]
      rfl
    · rfl
  | cons c x =>
    by_cases hpoint : c = '.'
    · subst hpoint
      exact readFraction_append h negative 0 0 x
    by_cases hlower : c = 'e'
    · subst hlower
      exact readExponent_append h negative 0 0 x
    by_cases hupper : c = 'E'
    · subst hupper
      exact readExponent_append h negative 0 0 x
    have hcons : ∀ t, zeroTail negative (c :: t)
        = if c.isDigit then none else some (whole negative 0, c :: t) := by
      intro t
      unfold zeroTail
      split <;> simp_all
    rw [List.cons_append, hcons, hcons]
    split <;> rfl

theorem wholeTail_append (negative : Bool) (significand dropped : Nat) (x : Text) :
    wholeTail negative significand dropped (x ++ y)
      = (wholeTail negative significand dropped x).map fun p => (p.1, p.2 ++ y) := by
  have hother : ∀ t : Text, t.head? ≠ some '.' → wholeTail negative significand dropped t =
      if dropped = 0 && !(t.head? = some 'e' || t.head? = some 'E') then
        some (whole negative significand, t)
      else readTail negative significand dropped t := by
    intro t ht
    unfold wholeTail
    split
    · exact absurd rfl ht
    · rfl
  by_cases hpoint : x.head? = some '.'
  · obtain ⟨r, rfl⟩ := List.head?_eq_some_iff.1 hpoint
    exact readFraction_append h negative significand dropped r
  · have hpoint' := mt (head?_append_iff h (by decide)).1 hpoint
    have hlower := head?_append_iff h (x := x) (c := 'e') (by decide)
    have hupper := head?_append_iff h (x := x) (c := 'E') (by decide)
    rw [hother x hpoint, hother (x ++ y) hpoint', readTail_append h]
    simp only [hlower, hupper]
    split <;> rfl

theorem readUnsigned_append (negative : Bool) (x : Text) :
    readUnsigned negative (x ++ y)
      = (readUnsigned negative x).map fun p => (p.1, p.2 ++ y) := by
  cases x with
  | nil =>
    cases y with
    | nil => rfl
    | cons c y =>
      have hzero : c ≠ '0' := by
        rintro rfl
        exact h.ne_cons (by decide) _ rfl
      rw [List.nil_append, readUnsigned_cons, if_neg hzero, h.isDigit rfl]
      rfl
  | cons c x =>
    have htake := takeDigits_append_of_ends h (c :: x) 0 0
    rw [List.cons_append] at htake
    rw [List.cons_append, readUnsigned_cons, readUnsigned_cons, htake, takeWhile_append h,
      dropWhile_append h, wholeTail_append h, zeroTail_append h]
    split
    · rfl
    · split <;> rfl

/-- A number that ends where a text does is read up to what follows the text. -/
theorem read?_append (x : Text) : read? (x ++ y) = (read? x).map fun p => (p.1, p.2 ++ y) := by
  have hother : ∀ t : Text, t.head? ≠ some '-' → read? t = readUnsigned false t := by
    intro t ht
    unfold read?
    split
    · exact absurd rfl ht
    · rfl
  by_cases hminus : x.head? = some '-'
  · obtain ⟨r, rfl⟩ := List.head?_eq_some_iff.1 hminus
    exact readUnsigned_append h true r
  · have hminus' := mt (head?_append_iff h (by decide)).1 hminus
    rw [hother x hminus, hother (x ++ y) hminus', readUnsigned_append h]

end Ends

/-! ## The grammar of a number -/

/-- One digit or more. -/
structure IsDigits (t : Text) : Prop where
  ne_nil : t ≠ []
  isDigit : ∀ c ∈ t, c.isDigit = true

/-- Nothing, or a point and digits. -/
def IsFraction (t : Text) : Prop := t = [] ∨ ∃ digits, t = '.' :: digits ∧ IsDigits digits

/-- Nothing, or the letter of an exponent, perhaps a sign, and digits. -/
def IsExponent (t : Text) : Prop :=
  t = [] ∨ ∃ e ∈ ['e', 'E'], ∃ mark ∈ [[], ['+'], ['-']], ∃ digits,
    t = e :: (mark ++ digits) ∧ IsDigits digits

/-- A number without a sign: digits of which the first is zero only if it is alone, and perhaps a
fraction and an exponent. -/
inductive IsUnsigned : Text → Prop
  | mk {whole fraction exponent : Text} : IsDigits whole →
      (whole.head? = some '0' → whole = ['0']) → IsFraction fraction → IsExponent exponent →
      IsUnsigned (whole ++ (fraction ++ exponent))

/-- A number. -/
inductive IsNumeral : Text → Prop
  | unsigned {t : Text} : IsUnsigned t → IsNumeral t
  | negative {t : Text} : IsUnsigned t → IsNumeral ('-' :: t)

theorem isNumeralChar_of_isDigit {c : Char} (h : c.isDigit = true) : isNumeralChar c = true := by
  simp [isNumeralChar, h]

theorem IsDigits.forall_isNumeralChar {t : Text} (h : IsDigits t) : ∀ c ∈ t, isNumeralChar c = true :=
  fun c hc => isNumeralChar_of_isDigit (h.isDigit c hc)

theorem IsFraction.forall_isNumeralChar {t : Text} (h : IsFraction t) :
    ∀ c ∈ t, isNumeralChar c = true := by
  obtain rfl | ⟨digits, rfl, hdigits⟩ := h
  · exact List.forall_mem_nil _
  · exact List.forall_mem_cons.2 ⟨by decide, hdigits.forall_isNumeralChar⟩

theorem IsExponent.forall_isNumeralChar {t : Text} (h : IsExponent t) :
    ∀ c ∈ t, isNumeralChar c = true := by
  obtain rfl | ⟨e, he, mark, hmark, digits, rfl, hdigits⟩ := h
  · exact List.forall_mem_nil _
  · have hletters : ['e', 'E'].all isNumeralChar = true := by decide
    have hmarks : ∀ mark ∈ [[], ['+'], ['-']], mark.all isNumeralChar = true := by decide
    refine List.forall_mem_cons.2 ⟨List.all_eq_true.1 hletters e he, ?_⟩
    exact List.forall_mem_append.2
      ⟨List.all_eq_true.1 (hmarks mark hmark), hdigits.forall_isNumeralChar⟩

theorem IsUnsigned.forall_isNumeralChar {t : Text} (h : IsUnsigned t) :
    ∀ c ∈ t, isNumeralChar c = true := by
  obtain ⟨hwhole, -, hfraction, hexponent⟩ := h
  rw [List.forall_mem_append, List.forall_mem_append]
  exact ⟨hwhole.forall_isNumeralChar, hfraction.forall_isNumeralChar,
    hexponent.forall_isNumeralChar⟩

theorem IsNumeral.forall_isNumeralChar {t : Text} (h : IsNumeral t) :
    ∀ c ∈ t, isNumeralChar c = true := by
  cases h with
  | unsigned ht => exact ht.forall_isNumeralChar
  | negative ht => exact List.forall_mem_cons.2 ⟨by decide, ht.forall_isNumeralChar⟩

theorem IsNumeral.ne_nil {t : Text} (h : IsNumeral t) : t ≠ [] := by
  cases h with
  | unsigned ht =>
    obtain ⟨hwhole, -, -, -⟩ := ht
    exact List.append_ne_nil_of_left_ne_nil hwhole.ne_nil _
  | negative ht => exact List.cons_ne_nil _ _

/-! ## What a number is read of -/

section Shape

variable {negative : Bool} {significand dropped : Nat} {exponent : Int} {t rest : Text}
  {n : JsonNumber}

/-- The digits that a text starts with. -/
theorem isDigits_takeWhile (h : t.takeWhile Char.isDigit ≠ []) :
    IsDigits (t.takeWhile Char.isDigit) :=
  ⟨h, fun c hc => List.all_eq_true.1 List.all_takeWhile c hc⟩

/-- Digits that are not taken are skipped. -/
theorem dropWhile_takeDigits (significand taken : Nat) (t : Text) :
    (takeDigits significand taken t).2.2.dropWhile Char.isDigit = t.dropWhile Char.isDigit := by
  induction t generalizing significand taken with
  | nil => rfl
  | cons c t ih =>
    rw [takeDigits]
    split
    · rename_i hc
      dsimp only
      split
      · rw [ih, List.dropWhile_cons_of_pos hc]
      · rfl
    · rfl

theorem exists_of_exponentDigits {down : Bool}
    (h : exponentDigits negative significand exponent down t = some (n, rest)) :
    ∃ digits, t = digits ++ rest ∧ IsDigits digits := by
  have hparts : t.takeWhile Char.isDigit ≠ [] ∧ t.dropWhile Char.isDigit = rest := by
    unfold exponentDigits at h
    split at h
    · cases h
    · rename_i hne
      refine ⟨hne, ?_⟩
      dsimp only at h
      split at h
      · obtain ⟨_, -, heq⟩ := Option.map_eq_some_iff.1 h
        exact (Prod.mk.inj heq).2
      · split at h
        · cases h
        · exact (Prod.mk.inj (Option.some.inj h)).2
  obtain ⟨hne, rfl⟩ := hparts
  exact ⟨_, List.takeWhile_append_dropWhile.symm, isDigits_takeWhile hne⟩

theorem exists_of_readExponent {e : Char} (he : e ∈ ['e', 'E'])
    (h : readExponent negative significand exponent t = some (n, rest)) :
    ∃ x, e :: t = x ++ rest ∧ IsExponent x := by
  -- the sign, if there is one, and the digits
  have hparts : ∃ mark ∈ [[], ['+'], ['-']], ∃ digits, t = mark ++ (digits ++ rest) ∧
      IsDigits digits := by
    rcases readExponent_cases negative significand exponent t with
      ⟨r, rfl, ht⟩ | ⟨r, rfl, ht⟩ | ⟨-, -, ht⟩
    · obtain ⟨digits, rfl, hdigits⟩ := exists_of_exponentDigits (ht ▸ h)
      exact ⟨['+'], by simp, digits, rfl, hdigits⟩
    · obtain ⟨digits, rfl, hdigits⟩ := exists_of_exponentDigits (ht ▸ h)
      exact ⟨['-'], by simp, digits, rfl, hdigits⟩
    · obtain ⟨digits, rfl, hdigits⟩ := exists_of_exponentDigits (ht ▸ h)
      exact ⟨[], by simp, digits, rfl, hdigits⟩
  obtain ⟨mark, hmark, digits, rfl, hdigits⟩ := hparts
  exact ⟨e :: (mark ++ digits), by simp, .inr ⟨e, he, mark, hmark, digits, rfl, hdigits⟩⟩

theorem exists_of_readTail (h : readTail negative significand exponent t = some (n, rest)) :
    ∃ x, t = x ++ rest ∧ IsExponent x := by
  rcases readTail_cases negative significand exponent t with ⟨r, hr, ht⟩ | ⟨-, -, ht⟩
  · rw [ht] at h
    rcases hr with rfl | rfl
    · exact exists_of_readExponent (by simp) h
    · exact exists_of_readExponent (by simp) h
  · rw [ht] at h
    obtain ⟨_, -, heq⟩ := Option.map_eq_some_iff.1 h
    exact ⟨[], (Prod.mk.inj heq).2, .inl rfl⟩

theorem exists_of_readFraction
    (h : readFraction negative significand exponent t = some (n, rest)) :
    ∃ fraction x, '.' :: t = fraction ++ (x ++ rest) ∧ IsFraction fraction ∧ IsExponent x := by
  cases t with
  | nil => cases h
  | cons c t =>
    rw [readFraction_cons, dropWhile_takeDigits] at h
    split at h
    · rename_i hc
      obtain ⟨x, hx, hexponent⟩ := exists_of_readTail h
      have hdigits : IsDigits ((c :: t).takeWhile Char.isDigit) :=
        isDigits_takeWhile (by simp [hc])
      refine ⟨'.' :: (c :: t).takeWhile Char.isDigit, x, ?_, .inr ⟨_, rfl, hdigits⟩, hexponent⟩
      rw [← hx, List.cons_append, List.takeWhile_append_dropWhile]
    · cases h

theorem exists_of_zeroTail (h : zeroTail negative t = some (n, rest)) :
    ∃ fraction x, t = fraction ++ (x ++ rest) ∧ IsFraction fraction ∧ IsExponent x := by
  unfold zeroTail at h
  split at h
  · exact exists_of_readFraction h
  · obtain ⟨x, hx, hexponent⟩ := exists_of_readExponent (e := 'e') (by simp) h
    exact ⟨[], x, hx, .inl rfl, hexponent⟩
  · obtain ⟨x, hx, hexponent⟩ := exists_of_readExponent (e := 'E') (by simp) h
    exact ⟨[], x, hx, .inl rfl, hexponent⟩
  · split at h
    · cases h
    · exact ⟨[], [], (Prod.mk.inj (Option.some.inj h)).2, .inl rfl, .inl rfl⟩
  · exact ⟨[], [], (Prod.mk.inj (Option.some.inj h)).2, .inl rfl, .inl rfl⟩

theorem exists_of_wholeTail (h : wholeTail negative significand dropped t = some (n, rest)) :
    ∃ fraction x, t = fraction ++ (x ++ rest) ∧ IsFraction fraction ∧ IsExponent x := by
  unfold wholeTail at h
  split at h
  · exact exists_of_readFraction h
  · split at h
    · exact ⟨[], [], (Prod.mk.inj (Option.some.inj h)).2, .inl rfl, .inl rfl⟩
    · obtain ⟨x, hx, hexponent⟩ := exists_of_readTail h
      exact ⟨[], x, hx, .inl rfl, hexponent⟩

theorem exists_of_readUnsigned (h : readUnsigned negative t = some (n, rest)) :
    ∃ x, t = x ++ rest ∧ IsUnsigned x := by
  cases t with
  | nil => cases h
  | cons c t =>
    rw [readUnsigned_cons, dropWhile_takeDigits] at h
    split at h
    · rename_i hzero
      subst hzero
      obtain ⟨fraction, x, rfl, hfraction, hexponent⟩ := exists_of_zeroTail h
      have hdigits : IsDigits ['0'] := ⟨List.cons_ne_nil _ _, by simp⟩
      exact ⟨['0'] ++ (fraction ++ x), by simp, .mk hdigits (fun _ => rfl) hfraction hexponent⟩
    · rename_i hzero
      split at h
      · rename_i hc
        obtain ⟨fraction, x, hx, hfraction, hexponent⟩ := exists_of_wholeTail h
        have hdigits : IsDigits ((c :: t).takeWhile Char.isDigit) :=
          isDigits_takeWhile (by simp [hc])
        refine ⟨(c :: t).takeWhile Char.isDigit ++ (fraction ++ x), ?_,
          .mk hdigits (fun hhead => ?_) hfraction hexponent⟩
        · rw [List.append_assoc, List.append_assoc, ← hx, List.takeWhile_append_dropWhile]
        · -- the first digit is no zero
          rw [List.takeWhile_cons_of_pos hc] at hhead
          exact absurd (Option.some.inj hhead) hzero
      · cases h

/-- A number is read of what the grammar has for one, and the rest of the text is left. -/
theorem exists_isNumeral_of_read? (h : read? t = some (n, rest)) :
    ∃ x, t = x ++ rest ∧ IsNumeral x := by
  unfold read? at h
  split at h
  · obtain ⟨x, rfl, hx⟩ := exists_of_readUnsigned h
    exact ⟨'-' :: x, rfl, .negative hx⟩
  · obtain ⟨x, rfl, hx⟩ := exists_of_readUnsigned h
    exact ⟨x, rfl, .unsigned hx⟩

/-- The second text is what is left of the first one after characters of a number. -/
def Numeral (t rest : Text) : Prop := ∃ x, t = x ++ rest ∧ ∀ c ∈ x, isNumeralChar c = true

/-- What is read of a text holds characters of a number only. -/
theorem numeral_of_read? (h : read? t = some (n, rest)) : Numeral t rest := by
  obtain ⟨x, hx, hnumeral⟩ := exists_isNumeral_of_read? h
  exact ⟨x, hx, hnumeral.forall_isNumeralChar⟩

/-- A number starts with one of its characters. -/
theorem exists_cons_of_read? (h : read? t = some (n, rest)) :
    ∃ c u, t = c :: u ∧ isNumeralChar c = true := by
  obtain ⟨x, rfl, hnumeral⟩ := exists_isNumeral_of_read? h
  obtain ⟨c, u, rfl⟩ := List.exists_cons_of_ne_nil hnumeral.ne_nil
  exact ⟨c, u ++ rest, rfl, hnumeral.forall_isNumeralChar c (List.mem_cons_self ..)⟩

end Shape

/-- A number that something else follows stands in front of it on its own. -/
theorem exists_read? {t rest : Text} {n : JsonNumber} (h : read? t = some (n, rest))
    (hends : Ends rest) :
    ∃ x, t = x ++ rest ∧ read? x = some (n, []) ∧ ∀ c ∈ x, isNumeralChar c = true := by
  obtain ⟨x, rfl, hx⟩ := numeral_of_read? h
  refine ⟨x, rfl, ?_, hx⟩
  rw [read?_append hends] at h
  obtain ⟨⟨m, u⟩, hread, heq⟩ := Option.map_eq_some_iff.1 h
  obtain ⟨rfl, hu⟩ := Prod.mk.inj heq
  have hnil : u = [] := List.append_left_eq_self.1 hu
  rw [hread, hnil]

end JsonNumber

end Mend
