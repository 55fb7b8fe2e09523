import Mend.Toml.Quoted

/-!
# Quoted texts read back

A text reads as itself from the form that shows it best (`Toml.readQuoted_quote`), whatever
characters it holds, as long as no quote follows.

A body with escapes reads character by character: each is written as itself or as an escape of one
letter or of four digits (`Toml.readBasic_basicChar`). With tripled quotes, the reader looks ahead at
each quote, since one or two quotes may stand in front of the three that close the text. Neither
writer puts three quotes next to each other, so the reader sees that many only where the text ends
(`Toml.readBasic_basicBody_lines`, `Toml.readLiteral_lines`).
-/

namespace Mend

namespace Toml

/-- A text does not start with a quote. -/
def NoQuote (rest : Text) : Prop :=
  rest.head? ≠ some basicQuote ∧ rest.head? ≠ some literalQuote

/-- Three quotes and a text after them. -/
def closing (quote : Char) (rest : Text) : Text := quote :: quote :: quote :: rest

/-! ## Reading basic texts -/

theorem readBasic_none (lines : Bool) (c : Char) (rest : Text) :
    readBasic lines .none (c :: rest) =
      if c = '\\' then readBasic lines .started rest
      else if c = basicQuote then
        if !lines then some ([], rest)
        else
          match rest with
          | '"' :: '"' :: '"' :: '"' :: after => some (['"', '"'], after)
          | '"' :: '"' :: '"' :: after => some (['"'], after)
          | '"' :: '"' :: after => some ([], after)
          | _ => put c (readBasic lines .none rest)
      else if isPlain c || (lines && (c = '\n' || (c = '\r' && rest.head? = some '\n'))) then
        put c (readBasic lines .none rest)
      else none := rfl

theorem readBasic_code (lines : Bool) (missing value : Nat) (c : Char) (rest : Text) :
    readBasic lines (.code missing value) (c :: rest) =
      match Json.hexDigit? c with
      | none => none
      | some d =>
        if missing = 1 then
          match ofCode? (value * 16 + d) with
          | some e => put e (readBasic lines .none rest)
          | none => none
        else readBasic lines (.code (missing - 1) (value * 16 + d)) rest := rfl

theorem readBasic_escape (lines : Bool) {c d : Char} (h : escape? c = some d) (rest : Text) :
    readBasic lines .none ('\\' :: c :: rest) = put d (readBasic lines .none rest) := by
  rw [readBasic_none, if_pos rfl, readBasic, h]

/-- An escape of four hexadecimal digits. -/
theorem readBasic_unicode (lines : Bool) {a b c d : Char} {n : Nat}
    (h : Json.hex4? a b c d = some n) (hn : n.isValidChar) (rest : Text) :
    readBasic lines .none ('\\' :: 'u' :: a :: b :: c :: d :: rest)
      = put (Char.ofNat n) (readBasic lines .none rest) := by
  simp only [Json.hex4?, Option.bind_eq_bind, Option.bind_eq_some_iff] at h
  obtain ⟨va, ha, vb, hb, vc, hc, vd, hd, h⟩ := h
  cases h
  have hcode : readBasic lines .none ('\\' :: 'u' :: a :: b :: c :: d :: rest)
      = readBasic lines (.code 4 0) (a :: b :: c :: d :: rest) := rfl
  simp [hcode, readBasic_code, ha, hb, hc, hd, ofCode?, hn]

theorem readBasic_plain {lines : Bool} {c : Char} (hslash : c ≠ '\\') (hquote : c ≠ basicQuote)
    (hc : isPlain c = true ∨ lines = true ∧ c = '\n') (rest : Text) :
    readBasic lines .none (c :: rest) = put c (readBasic lines .none rest) := by
  rw [readBasic_none, if_neg hslash, if_neg hquote]
  rcases hc with hc | ⟨hlines, hc⟩
  · simp [hc]
  · simp [hlines, hc]

/-- A quote before fewer than two others belongs to a text on several lines. -/
theorem readBasic_quote {rest : Text} (h : ¬ ['"', '"'] <+: rest) :
    readBasic true .none ('"' :: rest) = put '"' (readBasic true .none rest) := by
  rw [readBasic_none, if_neg (by decide), if_pos (by decide), if_neg (by decide)]
  split
  · exact absurd (List.prefix_append ['"', '"'] _) h
  · exact absurd (List.prefix_append ['"', '"'] _) h
  · exact absurd (List.prefix_append ['"', '"'] _) h
  · rfl

/-- Three quotes close a text on several lines, and up to two in front of them belong to it. -/
theorem readBasic_closing {rest : Text} (h : NoQuote rest) :
    readBasic true .none (closing '"' rest) = some ([], rest) ∧
      readBasic true .none ('"' :: closing '"' rest) = some (['"'], rest) ∧
      readBasic true .none ('"' :: '"' :: closing '"' rest) = some (['"', '"'], rest) := by
  cases rest with
  | nil => exact ⟨rfl, rfl, rfl⟩
  | cons c rest =>
    have hc : c ≠ '"' := fun heq => h.1 (congrArg some heq)
    refine ⟨?_, ?_, rfl⟩ <;>
      rw [closing, readBasic_none, if_neg (by decide), if_pos (by decide), if_neg (by decide)] <;>
      simp [hc]

/-! ## Characters of basic texts -/

/-- What is written for a character of a basic text that is no quote. -/
def basicChar (lines : Bool) (c : Char) : Text := (basicEscape? lines c).getD [c]

theorem basicBody_cons {lines : Bool} {allowed quotes : Nat} {c : Char} (hc : c ≠ basicQuote)
    (t : Text) : basicBody lines allowed quotes (c :: t)
      = basicChar lines c ++ basicBody lines allowed 0 t := by
  rw [basicBody, if_neg hc, basicChar]
  cases basicEscape? lines c <;> rfl

/-- The two digits of a code read as the code. -/
theorem hex4?_code : ∀ n < 128,
    (match ((Nat.toDigits 16 (n + 256)).drop 1).map Char.toUpper with
      | [a, b] => Json.hex4? '0' '0' a b == some n
      | _ => false) = true := by
  decide +kernel

theorem exists_digits {n : Nat} (h : n < 128) : ∃ a b,
    ((Nat.toDigits 16 (n + 256)).drop 1).map Char.toUpper = [a, b] ∧
      Json.hex4? '0' '0' a b = some n := by
  have hcode := hex4?_code n h
  split at hcode
  · rename_i a b hdigits
    exact ⟨a, b, hdigits, by simpa using hcode⟩
  · cases hcode

/-- A character that does not stand for itself is a control character. -/
theorem toNat_lt_of_isPlain {c : Char} (h : isPlain c = false) : c.toNat < 128 := by
  simp only [isPlain, Bool.or_eq_false_iff, Bool.and_eq_false_iff, decide_eq_false_iff_not] at h
  omega

/-- What is written for a character reads as that character. -/
theorem readBasic_basicChar (lines : Bool) {c : Char} (hc : c ≠ basicQuote) (rest : Text) :
    readBasic lines .none (basicChar lines c ++ rest) = put c (readBasic lines .none rest) := by
  unfold basicChar basicEscape?
  split
  · rename_i h
    subst h
    exact readBasic_escape lines rfl rest
  split
  · rename_i h
    subst h
    exact readBasic_escape lines rfl rest
  split
  · rename_i h
    subst h
    cases lines with
    | true => exact readBasic_plain (by decide) hc (.inr ⟨rfl, rfl⟩) rest
    | false => exact readBasic_escape false rfl rest
  split
  · rename_i h
    subst h
    exact readBasic_escape lines rfl rest
  split
  · rename_i h
    subst h
    exact readBasic_escape lines rfl rest
  split
  · rename_i h
    subst h
    exact readBasic_escape lines rfl rest
  split
  · rename_i hslash hplain
    exact readBasic_plain hslash hc (.inl hplain) rest
  -- the other control characters are written with four digits
  · rename_i hplain
    have hlow := toNat_lt_of_isPlain (Bool.eq_false_iff.2 hplain)
    obtain ⟨a, b, hdigits, hcode⟩ := exists_digits hlow
    have hread := readBasic_unicode lines hcode (Or.inl (by omega)) rest
    rw [Char.ofNat_toNat] at hread
    dsimp only [Option.getD_some]
    rw [hdigits]
    exact hread

/-- What is written for a character is an escape or the character. -/
theorem basicChar_head (lines : Bool) (c : Char) : ∃ d t, basicChar lines c = d :: t ∧
    (d = '\\' ∨ d = c ∧ c ≠ '\r' ∧ (lines = false → c ≠ '\n')) := by
  unfold basicChar basicEscape?
  repeat' split
  all_goals first
    | exact ⟨_, _, rfl, .inl rfl⟩
    | exact ⟨_, _, rfl, .inr ⟨rfl, by simp_all, by simp_all⟩⟩

/-! ## Bodies -/

/-- A basic text on one line reads as itself. -/
theorem readBasic_basicBody (t : Text) (quotes : Nat) (rest : Text) :
    readBasic false .none (basicBody false 0 quotes t ++ '"' :: rest) = some (t, rest) := by
  induction t generalizing quotes with
  | nil => rfl
  | cons c t ih =>
    by_cases hc : c = basicQuote
    · subst hc
      rw [basicBody, if_pos rfl, if_neg (Nat.not_lt_zero quotes), List.cons_append,
        List.cons_append, readBasic_escape false rfl, ih]
      rfl
    · rw [basicBody_cons hc, List.append_assoc, readBasic_basicChar false hc, ih]
      rfl

/-- After a quote, two more quotes can only close the text, or one of them is its last character. -/
theorem eq_of_quotes_prefix {t rest : Text} {quotes : Nat} (hquotes : 0 < quotes)
    (h : ['"', '"'] <+: basicBody true 2 quotes t ++ closing '"' rest) :
    t = [] ∨ quotes = 1 ∧ t = ['"'] := by
  have hslash : ∀ u, ¬ ['"'] <+: '\\' :: u := fun u hu => by simp at hu
  have hchar : ∀ {c : Char} (u : Text), c ≠ basicQuote → ¬ ['"'] <+: basicChar true c ++ u := by
    intro c u hc hu
    obtain ⟨d, v, hwritten, hd⟩ := basicChar_head true c
    rw [hwritten, List.cons_append] at hu
    rcases hd with rfl | ⟨rfl, -⟩
    · exact hslash _ hu
    · exact hc (by simpa [basicQuote, eq_comm] using hu)
  cases t with
  | nil => exact .inl rfl
  | cons c t =>
    by_cases hc : c = basicQuote
    · subst hc
      rw [basicBody, if_pos rfl] at h
      by_cases hone : quotes < 2
      · obtain rfl : quotes = 1 := by omega
        rw [if_pos hone, List.cons_append] at h
        have hnext : ['"'] <+: basicBody true 2 2 t ++ closing '"' rest :=
          (List.cons_prefix_cons.1 h).2
        refine .inr ⟨rfl, ?_⟩
        -- a third quote in a row would be an escape
        cases t with
        | nil => rfl
        | cons d t =>
          by_cases hd : d = basicQuote
          · subst hd
            exact absurd hnext (hslash _)
          · rw [basicBody_cons hd, List.append_assoc] at hnext
            exact absurd hnext (hchar _ hd)
      · rw [if_neg hone] at h
        exact absurd ((List.prefix_append ['"'] ['"']).trans h) (hslash _)
    · rw [basicBody_cons hc, List.append_assoc] at h
      exact absurd ((List.prefix_append ['"'] ['"']).trans h) (hchar _ hc)

/-- A basic text on several lines reads as itself. -/
theorem readBasic_basicBody_lines {rest : Text} (hrest : NoQuote rest) (t : Text) (quotes : Nat) :
    readBasic true .none (basicBody true 2 quotes t ++ closing '"' rest) = some (t, rest) := by
  obtain ⟨hnone, hone, htwo⟩ := readBasic_closing hrest
  induction t generalizing quotes with
  | nil => exact hnone
  | cons c t ih =>
    by_cases hc : c = basicQuote
    · subst hc
      by_cases hquotes : quotes < 2
      · by_cases hnext : ['"', '"'] <+: basicBody true 2 (quotes + 1) t ++ closing '"' rest
        -- the text ends here
        · rw [basicBody, if_pos rfl, if_pos hquotes]
          rcases eq_of_quotes_prefix (Nat.succ_pos quotes) hnext with rfl | ⟨hzero, rfl⟩
          · exact hone
          · obtain rfl : quotes = 0 := by omega
            exact htwo
        · rw [basicBody, if_pos rfl, if_pos hquotes, List.cons_append]
          exact (readBasic_quote hnext).trans (by rw [ih]; rfl)
      · rw [basicBody, if_pos rfl, if_neg hquotes, List.cons_append, List.cons_append,
          readBasic_escape true rfl, ih]
        rfl
    · rw [basicBody_cons hc, List.append_assoc, readBasic_basicChar true hc, ih]
      rfl

/-! ## Reading literal texts -/

theorem readLiteral_cons (lines : Bool) (c : Char) (rest : Text) :
    readLiteral lines (c :: rest) =
      if c = literalQuote then
        if !lines then some ([], rest)
        else
          match rest with
          | '\'' :: '\'' :: '\'' :: '\'' :: after => some (['\'', '\''], after)
          | '\'' :: '\'' :: '\'' :: after => some (['\''], after)
          | '\'' :: '\'' :: after => some ([], after)
          | _ => put c (readLiteral lines rest)
      else if isPlain c || (lines && (c = '\n' || (c = '\r' && rest.head? = some '\n'))) then
        put c (readLiteral lines rest)
      else none := rfl

theorem readLiteral_plain {lines : Bool} {c : Char} (hquote : c ≠ literalQuote)
    (hc : isPlain c = true ∨ lines = true ∧ c = '\n') (rest : Text) :
    readLiteral lines (c :: rest) = put c (readLiteral lines rest) := by
  rw [readLiteral_cons, if_neg hquote]
  rcases hc with hc | ⟨hlines, hc⟩
  · simp [hc]
  · simp [hlines, hc]

/-- A quote before fewer than two others belongs to a text on several lines. -/
theorem readLiteral_quote {rest : Text} (h : ¬ ['\'', '\''] <+: rest) :
    readLiteral true ('\'' :: rest) = put '\'' (readLiteral true rest) := by
  rw [readLiteral_cons, if_pos (by decide), if_neg (by decide)]
  split
  · exact absurd (List.prefix_append ['\'', '\''] _) h
  · exact absurd (List.prefix_append ['\'', '\''] _) h
  · exact absurd (List.prefix_append ['\'', '\''] _) h
  · rfl

/-- Three quotes close a text on several lines, and up to two in front of them belong to it. -/
theorem readLiteral_closing {rest : Text} (h : NoQuote rest) :
    readLiteral true (closing '\'' rest) = some ([], rest) ∧
      readLiteral true ('\'' :: closing '\'' rest) = some (['\''], rest) ∧
      readLiteral true ('\'' :: '\'' :: closing '\'' rest) = some (['\'', '\''], rest) := by
  cases rest with
  | nil => exact ⟨rfl, rfl, rfl⟩
  | cons c rest =>
    have hc : c ≠ '\'' := fun heq => h.2 (congrArg some heq)
    refine ⟨?_, ?_, rfl⟩ <;>
      rw [closing, readLiteral_cons, if_pos (by decide), if_neg (by decide)] <;>
      simp [hc]

/-- A literal text on one line reads as itself. -/
theorem readLiteral_line {t : Text} (h : ∀ c ∈ t, isPlain c = true ∧ c ≠ literalQuote)
    (rest : Text) : readLiteral false (t ++ '\'' :: rest) = some (t, rest) := by
  induction t with
  | nil => rfl
  | cons c t ih =>
    obtain ⟨⟨hplain, hquote⟩, ht⟩ := List.forall_mem_cons.1 h
    rw [List.cons_append, readLiteral_plain hquote (.inl hplain), ih ht]
    rfl

theorem le_longestRun (c : Char) (current longest : Nat) (t : Text) :
    longest ≤ longestRun c current longest t := by
  induction t generalizing current longest with
  | nil => exact Nat.le_refl longest
  | cons d t ih =>
    rw [longestRun]
    split
    · exact Nat.le_trans (Nat.le_max_left _ _) (ih _ _)
    · exact ih _ _

/-- A quote makes the run longer. -/
theorem longestRun_cons_self (c : Char) (current longest : Nat) (t : Text) :
    longestRun c current longest (c :: t)
      = longestRun c (current + 1) (max longest (current + 1)) t := by
  rw [longestRun, if_pos rfl]

theorem lt_longestRun_cons_self (c : Char) (current longest : Nat) (t : Text) :
    current < longestRun c current longest (c :: t) := by
  rw [longestRun_cons_self]
  exact Nat.le_trans (Nat.le_max_right _ _) (le_longestRun c _ _ t)

/-- A literal text on several lines reads as itself, unless three quotes stand in it together. -/
theorem readLiteral_lines {rest : Text} (hrest : NoQuote rest) {t : Text}
    (hplain : ∀ c ∈ t, isPlain c = true ∨ c = '\n') {current longest : Nat}
    (hrun : longestRun literalQuote current longest t ≤ 2) :
    readLiteral true (t ++ closing '\'' rest) = some (t, rest) := by
  obtain ⟨hnone, hone, htwo⟩ := readLiteral_closing hrest
  induction t generalizing current longest with
  | nil => exact hnone
  | cons c t ih =>
    obtain ⟨hc, ht⟩ := List.forall_mem_cons.1 hplain
    by_cases hquote : c = literalQuote
    · subst hquote
      rw [longestRun_cons_self] at hrun
      by_cases hnext : ['\'', '\''] <+: t ++ closing '\'' rest
      -- the text ends here, since a third quote would make the run too long
      · rcases t with _ | ⟨a, _ | ⟨b, t⟩⟩
        · exact hone
        · obtain rfl : a = '\'' := (List.cons_prefix_cons.1 hnext).1.symm
          exact htwo
        · obtain ⟨rfl, rfl⟩ : a = literalQuote ∧ b = literalQuote := by
            simpa [List.cons_prefix_cons, literalQuote, eq_comm] using hnext
          rw [longestRun_cons_self] at hrun
          have hthird := Nat.lt_of_lt_of_le (lt_longestRun_cons_self literalQuote _ _ t) hrun
          omega
      · exact (readLiteral_quote hnext).trans (by rw [ih ht hrun]; rfl)
    · rw [longestRun, if_neg hquote] at hrun
      rw [List.cons_append, readLiteral_plain hquote (hc.imp id fun h => ⟨rfl, h⟩), ih ht hrun]
      rfl

/-! ## The four forms -/

section Forms

variable {t rest : Text} (hrest : NoQuote rest)

/-- The opening line feed is dropped again. -/
theorem dropLineFeed_openingLine {u : Text}
    (h : '\n' ∉ t → ∀ c ∈ u.head?, c ≠ '\n' ∧ c ≠ '\r') : dropLineFeed (openingLine t ++ u) = u := by
  by_cases hmem : '\n' ∈ t
  · simp [openingLine, hmem, dropLineFeed]
  · have hopening : openingLine t = [] := by simp [openingLine, hmem]
    rw [hopening, List.nil_append]
    cases u with
    | nil => rfl
    | cons c u =>
      obtain ⟨hlf, hcr⟩ := h hmem c rfl
      rw [dropLineFeed]
      · exact fun _ heq => hlf (List.cons.inj heq).1
      · exact fun _ heq => hcr (List.cons.inj heq).1

include hrest

theorem readQuoted_basic : readQuoted (quoteAs t .basic ++ rest) = some (t, rest) := by
  have hread := readBasic_basicBody t 0 rest
  have hnext : ¬ ['"', '"'] <+: basicBody false 0 0 t ++ '"' :: rest := by
    cases t with
    | nil =>
      intro hprefix
      refine hrest.1 ?_
      cases rest with
      | nil => simp [basicBody] at hprefix
      | cons c rest => simpa [basicBody, basicQuote, eq_comm] using hprefix
    | cons c t =>
      by_cases hc : c = basicQuote
      · subst hc
        intro hprefix
        simp [basicBody] at hprefix
      · obtain ⟨d, v, hwritten, hd⟩ := basicChar_head false c
        rw [basicBody_cons hc, hwritten]
        rcases hd with rfl | ⟨rfl, -⟩
        · simp
        · intro hprefix
          exact hc (by simpa [basicQuote, eq_comm] using (List.cons_prefix_cons.1 hprefix).1)
  have htext : quoteAs t .basic ++ rest = '"' :: (basicBody false 0 0 t ++ '"' :: rest) := by
    simp [quoteAs, basicQuote]
  rw [htext, readQuoted]
  · exact hread
  · intro u heq
    exact hnext (heq ▸ List.prefix_append ['"', '"'] u)

theorem readQuoted_basicLines : readQuoted (quoteAs t .basicLines ++ rest) = some (t, rest) := by
  have htext : quoteAs t .basicLines ++ rest
      = closing '"' (openingLine t ++ (basicBody true 2 0 t ++ closing '"' rest)) := by
    simp [quoteAs, basicQuote, closing, List.replicate]
  have hdrop : dropLineFeed (openingLine t ++ (basicBody true 2 0 t ++ closing '"' rest))
      = basicBody true 2 0 t ++ closing '"' rest := by
    refine dropLineFeed_openingLine fun hlf => ?_
    cases t with
    | nil =>
      intro c hc
      obtain rfl : '"' = c := by simpa [basicBody, closing] using hc
      exact ⟨by decide, by decide⟩
    | cons c t =>
      by_cases hc : c = basicQuote
      · subst hc
        intro d hd
        obtain rfl : basicQuote = d := by simpa [basicBody] using hd
        exact ⟨by decide, by decide⟩
      · obtain ⟨d, v, hwritten, hd⟩ := basicChar_head true c
        rw [basicBody_cons hc, hwritten]
        intro e he
        obtain rfl : d = e := by simpa using he
        rcases hd with rfl | ⟨rfl, hcr, -⟩
        · exact ⟨by decide, by decide⟩
        · exact ⟨fun heq => hlf (heq ▸ List.mem_cons_self ..), hcr⟩
  rw [htext]
  show readBasic true .none (dropLineFeed _) = _
  rw [hdrop, readBasic_basicBody_lines hrest]

theorem readQuoted_literal (h : ∀ c ∈ t, isPlain c = true ∧ c ≠ literalQuote) :
    readQuoted (quoteAs t .literal ++ rest) = some (t, rest) := by
  have htext : quoteAs t .literal ++ rest = '\'' :: (t ++ '\'' :: rest) := by
    simp [quoteAs, literalQuote]
  rw [htext, readQuoted]
  · exact readLiteral_line h rest
  · intro u heq
    -- two quotes can only stand there if the text is empty and a quote follows
    cases t with
    | nil =>
      refine hrest.2 ?_
      rw [List.nil_append, List.cons.injEq] at heq
      rw [heq.2]
      rfl
    | cons c t =>
      rw [List.cons_append, List.cons.injEq] at heq
      exact (h c (List.mem_cons_self ..)).2 heq.1

theorem readQuoted_literalLines (hplain : ∀ c ∈ t, isPlain c = true ∨ c = '\n')
    (hrun : longestRun literalQuote 0 0 t ≤ 2) :
    readQuoted (quoteAs t .literalLines ++ rest) = some (t, rest) := by
  have htext : quoteAs t .literalLines ++ rest
      = closing '\'' (openingLine t ++ (t ++ closing '\'' rest)) := by
    simp [quoteAs, literalQuote, closing, List.replicate]
  have hdrop : dropLineFeed (openingLine t ++ (t ++ closing '\'' rest)) = t ++ closing '\'' rest := by
    refine dropLineFeed_openingLine fun hlf => ?_
    cases t with
    | nil =>
      intro c hc
      obtain rfl : '\'' = c := by simpa [closing] using hc
      exact ⟨by decide, by decide⟩
    | cons c t =>
      intro d hd
      obtain rfl : c = d := by simpa using hd
      refine ⟨fun heq => hlf (heq ▸ List.mem_cons_self ..), ?_⟩
      rintro rfl
      rcases hplain '\r' (List.mem_cons_self ..) with h | h <;> revert h <;> decide
  rw [htext]
  show readLiteral true (dropLineFeed _) = _
  rw [hdrop, readLiteral_lines hrest hplain hrun]

end Forms

/-- A quote that stands in a text makes a run. -/
theorem longestRun_pos {c : Char} {t : Text} (h : c ∈ t) (current longest : Nat) :
    0 < longestRun c current longest t := by
  induction t generalizing current longest with
  | nil => cases h
  | cons d t ih =>
    by_cases hd : d = c
    · subst hd
      exact Nat.lt_of_le_of_lt (Nat.zero_le _) (lt_longestRun_cons_self d current longest t)
    · rw [longestRun, if_neg hd]
      exact ih ((List.mem_cons.1 h).resolve_left (Ne.symm hd)) 0 longest

/-- A text reads as itself from the form that shows it best. -/
theorem readQuoted_quote (t : Text) {rest : Text} (hrest : NoQuote rest) :
    readQuoted (quote t ++ rest) = some (t, rest) := by
  have hplain : (t.any needsEscape) = false → ∀ c ∈ t, isPlain c = true ∨ c = '\n' := by
    intro hcoded c hc
    have := List.any_eq_false.1 hcoded c hc
    simpa [needsEscape, Classical.or_iff_not_imp_left] using this
  rw [quote, bestForm]
  split
  · exact readQuoted_basic hrest
  split
  · rename_i hliteral
    simp only [Bool.and_eq_true, Bool.not_eq_true', decide_eq_true_eq] at hliteral
    obtain ⟨⟨hcoded, hsingles⟩, hline⟩ := hliteral
    refine readQuoted_literal hrest fun c hc => ⟨?_, ?_⟩
    · refine (hplain hcoded c hc).resolve_right ?_
      rintro rfl
      simp [hc] at hline
    · rintro rfl
      exact absurd hsingles (Nat.pos_iff_ne_zero.1 (longestRun_pos hc 0 0))
  split
  · exact readQuoted_basicLines hrest
  split
  · rename_i hlines
    simp only [Bool.and_eq_true, Bool.not_eq_true', decide_eq_true_eq] at hlines
    exact readQuoted_literalLines hrest (hplain hlines.1) hlines.2
  split
  · exact readQuoted_basicLines hrest
  · exact readQuoted_basic hrest

end Toml

end Mend
