import Mend.Proofs.Text.Lines
import Mend.Proofs.Toml.Quoted
import Mend.Toml.Reader
import Mend.Toml.Writer

/-!
# Values read back

What is written for a value reads as that value in front of a line feed (`Toml.Reads`): whole
numbers, truth values, texts and arrays of texts.
-/

namespace Mend

namespace Toml

/-! ## Whole numbers -/

theorem plainDigits?_of_isDigit {t : Text} (h : ∀ c ∈ t, c.isDigit = true) (digit : Bool)
    (hne : t ≠ [] ∨ digit = true) : plainDigits? Char.isDigit digit t = some t := by
  induction t generalizing digit with
  | nil =>
    obtain rfl := hne.resolve_left fun hnil => hnil rfl
    rfl
  | cons c t ih =>
    obtain ⟨hc, ht⟩ := List.forall_mem_cons.1 h
    have hline : c ≠ '_' := by
      rintro rfl
      revert hc
      decide
    rw [plainDigits?, if_neg hline, if_pos hc, ih ht true (.inr rfl)]
    rfl

theorem decimal?_ofNat (n : Nat) : decimal? (Text.ofNat n) = some (Text.ofNat n) := by
  rw [decimal?, plainDigits?_of_isDigit (fun c hc => Text.isDigit_of_mem_ofNat hc) false
    (.inl (Text.ofNat_ne_nil n))]
  split
  · rename_i c rest heq
    exact absurd (Option.some.inj heq) (Text.ofNat_ne_zero_cons n c rest)
  · rfl

/-- A digit is its own hexadecimal digit. -/
theorem hexDigit?_of_isDigit {c : Char} (h : c.isDigit = true) :
    Json.hexDigit? c = some (c.toNat - '0'.toNat) := by
  have hrange : ('0' ≤ c && c ≤ '9') = true := h
  rw [Json.hexDigit?, if_pos hrange]

theorem ofDigits_ofNat (n : Nat) : ofDigits 10 (Text.ofNat n) = n := by
  have hfold : ∀ {t : Text}, (∀ c ∈ t, c.isDigit = true) → ∀ m,
      t.foldl (fun n c => n * 10 + (Json.hexDigit? c).getD 0) m
        = t.foldl (fun n c => n * 10 + (c.toNat - '0'.toNat)) m := by
    intro t
    induction t with
    | nil => exact fun _ _ => rfl
    | cons c t ih =>
      intro h m
      obtain ⟨hc, ht⟩ := List.forall_mem_cons.1 h
      rw [List.foldl_cons, List.foldl_cons, hexDigit?_of_isDigit hc, Option.getD_some]
      exact ih ht _
  have hvalue := Text.toNat?_ofNat n
  rw [Text.toNat?] at hvalue
  split at hvalue
  · rw [ofDigits, hfold fun c hc => Text.isDigit_of_mem_ofNat hc]
    exact Option.some.inj hvalue
  · cases hvalue

/-- The digits of a number write that number. -/
theorem int?_ofNat {n : Nat} (h : n < 2 ^ 128) : int? (Text.ofNat n) = some (Int.ofNat n) := by
  have hdigit : ∀ {c : Char}, c ∈ Text.ofNat n → c.isDigit = true := fun hc =>
    Text.isDigit_of_mem_ofNat hc
  have hholds : holds n = true := by
    simp only [holds, Bool.and_eq_true, decide_eq_true_eq]
    omega
  -- neither a base nor a sign stands in front
  have hvalue : (decimal? (Text.ofNat n)).map (fun d => (ofDigits 10 d : Int)) = some (n : Int) := by
    rw [decimal?_ofNat, Option.map_some, ofDigits_ofNat]
  unfold int?
  split
  · rename_i heq
    exact absurd heq (Text.ofNat_ne_zero_cons n _ _)
  · rename_i heq
    exact absurd heq (Text.ofNat_ne_zero_cons n _ _)
  · rename_i heq
    exact absurd heq (Text.ofNat_ne_zero_cons n _ _)
  · rename_i heq
    exact absurd (hdigit (heq ▸ List.mem_cons_self ..)) (by decide)
  · rename_i heq
    exact absurd (hdigit (heq ▸ List.mem_cons_self ..)) (by decide)
  · rw [hvalue]
    simp [Option.filter, hholds]

/-! ## Scalars -/

/-- A scalar that a line feed follows. -/
theorem readScalar_line {t : Text} {v : Toml} (h : ∀ c ∈ t, isScalarChar c = true)
    (hv : scalar? t = some v) (rest : Text) :
    readScalar (t ++ '\n' :: rest) = some (v, '\n' :: rest) := by
  have htake : (t ++ '\n' :: rest).takeWhile isScalarChar = t := by
    rw [List.takeWhile_append_of_pos h]
    simp [isScalarChar]
  have hdrop : (t ++ '\n' :: rest).dropWhile isScalarChar = '\n' :: rest := by
    rw [List.dropWhile_append_of_pos h]
    simp [isScalarChar]
  have htime : timeFollows t ('\n' :: rest) = false := rfl
  rw [readScalar, htake, hdrop, htime, hv]
  rfl

theorem scalar?_ofNat {n : Nat} (h : n < 2 ^ 128) :
    scalar? (Text.ofNat n) = some (.int (.ofNat n)) := by
  have hdigit : ∀ {c : Char} {t : Text}, Text.ofNat n = c :: t → c.isDigit = true := fun heq =>
    Text.isDigit_of_mem_ofNat (heq ▸ List.mem_cons_self ..)
  have htrue : Text.ofNat n ≠ "true".toList := fun heq => absurd (hdigit heq) (by decide)
  have hfalse : Text.ofNat n ≠ "false".toList := fun heq => absurd (hdigit heq) (by decide)
  rw [scalar?, if_neg htrue, if_neg hfalse, int?_ofNat h]

theorem isScalarChar_of_isDigit {c : Char} (h : c.isDigit = true) : isScalarChar c = true := by
  simp [isScalarChar, Char.isAlphanum, h]

/-- What starts no text, array or table is a scalar. -/
theorem readValue_scalar {c : Char} (h : isScalarChar c = true) (fuel depth : Nat) (t : Text) :
    readValue (fuel + 1) depth (c :: t) = readScalar (c :: t) := by
  rw [readValue]
  all_goals
    rintro _ heq
    obtain ⟨rfl, -⟩ := List.cons.inj heq
    revert h
    decide

/-! ## Texts and arrays of texts -/

/-- A written text starts with a quote. -/
theorem exists_quote (t : Text) : ∃ q u, quote t = q :: u ∧ (q = '"' ∨ q = '\'') := by
  rw [quote]
  cases bestForm t with
  | basic => exact ⟨_, _, rfl, .inl rfl⟩
  | literal => exact ⟨_, _, rfl, .inr rfl⟩
  | basicLines => exact ⟨_, _, rfl, .inl rfl⟩
  | literalLines => exact ⟨_, _, rfl, .inr rfl⟩

theorem readValue_quote (t : Text) {rest : Text} (hrest : NoQuote rest) (fuel depth : Nat) :
    readValue (fuel + 1) depth (quote t ++ rest) = some (.text t, rest) := by
  have hread := readQuoted_quote t hrest
  obtain ⟨q, u, heq, hq⟩ := exists_quote t
  rw [heq] at hread ⊢
  rw [List.cons_append] at hread ⊢
  rcases hq with rfl | rfl
  · rw [readValue, hread]
    rfl
  · rw [readValue, hread]
    rfl

theorem skipLines_quote (t rest : Text) :
    skipLines false (quote t ++ rest) = some (quote t ++ rest) := by
  obtain ⟨q, u, heq, hq⟩ := exists_quote t
  rw [heq]
  rcases hq with rfl | rfl <;> rfl

theorem noQuote_cons {c : Char} (h : c ≠ basicQuote ∧ c ≠ literalQuote) (rest : Text) :
    NoQuote (c :: rest) :=
  ⟨fun heq => h.1 (Option.some.inj heq), fun heq => h.2 (Option.some.inj heq)⟩

section Items

variable (t : Text) {rest after : Text} (fuel depth : Nat)

theorem readItems_bracket : readItems (fuel + 2) depth (quote t ++ ']' :: rest)
    = some ([.text t], rest) := by
  rw [readItems, readValue_quote t (noQuote_cons ⟨by decide, by decide⟩ rest)]
  rfl

/-- The last text of an array, with a comma after it. -/
theorem readItems_comma (h : skipLines false rest = some (']' :: after)) :
    readItems (fuel + 2) depth (quote t ++ ',' :: rest) = some ([.text t], after) := by
  have hcomma : skipLines false (',' :: rest) = some (',' :: rest) := rfl
  rw [readItems, readValue_quote t (noQuote_cons ⟨by decide, by decide⟩ rest)]
  simp [hcomma, h]

/-- A text of an array and another one after it. -/
theorem readItems_next {item : Text} (h : skipLines false rest = some (quote item ++ after)) :
    readItems (fuel + 2) depth (quote t ++ ',' :: rest)
      = (readItems (fuel + 1) depth (quote item ++ after)).map fun p => (.text t :: p.1, p.2) := by
  have hcomma : skipLines false (',' :: rest) = some (',' :: rest) := rfl
  rw [readItems, readValue_quote t (noQuote_cons ⟨by decide, by decide⟩ rest)]
  -- a quote is no closing bracket
  obtain ⟨q, u, heq, hq⟩ := exists_quote item
  rw [heq, List.cons_append] at h ⊢
  rw [Option.map_eq_bind]
  simp only [hcomma, h, Option.bind_eq_bind, Option.bind_some]
  rcases hq with rfl | rfl <;> rfl

end Items

/-- The lines of an array of several texts. -/
def itemLines (items : List Text) : Text :=
  items.flatMap fun item => "\n    ".toList ++ quote item ++ [',']

/-- Blanks in front of the first line of an array are skipped. -/
theorem skipLines_itemLines (item : Text) (items : List Text) (rest : Text) :
    skipLines false (itemLines (item :: items) ++ rest)
      = some (quote item ++ ',' :: (itemLines items ++ rest)) := by
  have hlines : itemLines (item :: items) ++ rest
      = "\n    ".toList ++ (quote item ++ ',' :: (itemLines items ++ rest)) := by
    simp [itemLines]
  rw [hlines]
  exact skipLines_quote item (',' :: (itemLines items ++ rest))

/-- Texts on lines of their own. -/
theorem readItems_lines (first : Text) (items : List Text) (rest : Text) (depth : Nat) {fuel : Nat}
    (hfuel : items.length + 2 ≤ fuel) :
    readItems fuel depth (quote first ++ ',' :: (itemLines items ++ '\n' :: ']' :: rest))
      = some ((first :: items).map .text, rest) := by
  induction items generalizing first fuel with
  | nil =>
    obtain ⟨fuel, rfl⟩ : ∃ k, fuel = k + 2 := ⟨fuel - 2, by omega⟩
    exact readItems_comma first fuel depth rfl
  | cons item items ih =>
    rw [List.length_cons] at hfuel
    obtain ⟨fuel, rfl⟩ : ∃ k, fuel = k + 2 := ⟨fuel - 2, by omega⟩
    rw [readItems_next first fuel depth (skipLines_itemLines item items _), ih item (by omega)]
    rfl

/-- An array whose first item is a text. -/
theorem readValue_items {first after : Text} {rest : Text} {v : List Toml × Text} {fuel depth : Nat}
    (h : skipLines false rest = some (quote first ++ after))
    (hitems : readItems fuel depth (quote first ++ after) = some v) :
    readValue (fuel + 1) (depth + 1) ('[' :: rest) = some (.array v.1, v.2) := by
  obtain ⟨q, u, heq, hq⟩ := exists_quote first
  rw [heq, List.cons_append] at h hitems
  rw [readValue, h]
  rcases hq with rfl | rfl
  · exact congrArg (Option.map _) hitems
  · exact congrArg (Option.map _) hitems

/-- A written array of texts. -/
theorem readValue_writeTexts (items : List Text) (rest : Text) (depth : Nat) {fuel : Nat}
    (hfuel : items.length + 2 ≤ fuel) :
    readValue fuel (depth + 1) (writeTexts items ++ rest)
      = some (.array (items.map .text), rest) := by
  obtain ⟨fuel, rfl⟩ : ∃ k, fuel = k + 2 := ⟨fuel - 2, by omega⟩
  rcases items with _ | ⟨first, _ | ⟨second, items⟩⟩
  · rfl
  · rw [List.length_singleton] at hfuel
    obtain ⟨fuel, rfl⟩ : ∃ k, fuel = k + 1 := ⟨fuel - 1, by omega⟩
    have htext : writeTexts [first] ++ rest = '[' :: (quote first ++ ']' :: rest) := by
      simp [writeTexts]
    rw [htext]
    exact readValue_items (skipLines_quote first _) (readItems_bracket first fuel depth)
  · have htext : writeTexts (first :: second :: items) ++ rest
        = '[' :: (itemLines (first :: second :: items) ++ '\n' :: ']' :: rest) := by
      simp [writeTexts, itemLines]
    rw [List.length_cons] at hfuel
    rw [htext]
    exact readValue_items (skipLines_itemLines first _ _)
      (readItems_lines first (second :: items) rest depth (by omega))

/-! ## Values of entries -/

/-- A text that reads as a value in front of a line feed. -/
structure Reads (text : Text) (v : Toml) : Prop where
  starts : ∀ c ∈ text.head?, isSpace c = false
  ne_nil : text ≠ []
  value : ∀ fuel rest, 2 * text.length + 2 ≤ fuel →
    readValue fuel maxDepth (text ++ '\n' :: rest) = some (v, '\n' :: rest)

/-- A scalar reads as its value. -/
theorem reads_scalar {t : Text} {v : Toml} (hne : t ≠ []) (h : ∀ c ∈ t, isScalarChar c = true)
    (hv : scalar? t = some v) : Reads t v := by
  obtain ⟨c, u, rfl⟩ := List.exists_cons_of_ne_nil hne
  have hc := h c (List.mem_cons_self ..)
  refine ⟨?_, hne, fun fuel rest hfuel => ?_⟩
  · intro d hd
    obtain rfl := Option.some.inj hd
    rw [Bool.eq_false_iff]
    intro hspace
    have hcases : c = ' ' ∨ c = '\t' := by simpa [isSpace] using hspace
    rcases hcases with rfl | rfl <;> exact absurd hc (by decide)
  · obtain ⟨fuel, rfl⟩ : ∃ k, fuel = k + 1 := ⟨fuel - 1, by omega⟩
    rw [List.cons_append, readValue_scalar hc]
    exact readScalar_line h hv rest

theorem reads_ofNat {n : Nat} (h : n < 2 ^ 128) : Reads (Text.ofNat n) (.int (.ofNat n)) :=
  reads_scalar (Text.ofNat_ne_nil n)
    (fun _ hc => isScalarChar_of_isDigit (Text.isDigit_of_mem_ofNat hc)) (scalar?_ofNat h)

theorem reads_writeBool (b : Bool) : Reads (writeBool b) (.bool b) := by
  cases b with
  | true => exact reads_scalar (by decide) (List.all_eq_true.1 (by decide)) rfl
  | false => exact reads_scalar (by decide) (List.all_eq_true.1 (by decide)) rfl

theorem reads_quote (t : Text) : Reads (quote t) (.text t) := by
  obtain ⟨q, u, heq, hq⟩ := exists_quote t
  refine ⟨?_, by simp [heq], fun fuel rest hfuel => ?_⟩
  · intro c hc
    rw [heq] at hc
    obtain rfl := Option.some.inj hc
    rcases hq with rfl | rfl <;> rfl
  · obtain ⟨fuel, rfl⟩ : ∃ k, fuel = k + 1 := ⟨fuel - 1, by omega⟩
    exact readValue_quote t (noQuote_cons ⟨by decide, by decide⟩ rest) fuel maxDepth

theorem length_le_writeTexts (items : List Text) : items.length ≤ (writeTexts items).length := by
  have hlines : items.length ≤ (itemLines items).length := by
    induction items with
    | nil => exact Nat.zero_le _
    | cons item items ih =>
      rw [itemLines, List.flatMap_cons, ← itemLines]
      simp only [List.length_append, List.length_cons, List.length_nil]
      omega
  rcases items with _ | ⟨first, _ | ⟨second, items⟩⟩
  · exact Nat.zero_le _
  · simp [writeTexts]
  · have htext : writeTexts (first :: second :: items)
        = '[' :: itemLines (first :: second :: items) ++ ['\n', ']'] := rfl
    rw [htext, List.length_append, List.length_cons (a := '[')]
    omega

theorem reads_writeTexts (items : List Text) :
    Reads (writeTexts items) (.array (items.map .text)) := by
  obtain ⟨u, hu⟩ : ∃ u, writeTexts items = '[' :: u := by
    rcases items with _ | ⟨first, _ | ⟨second, items⟩⟩ <;> exact ⟨_, rfl⟩
  refine ⟨?_, by simp [hu], fun fuel rest hfuel => ?_⟩
  · intro c hc
    rw [hu] at hc
    obtain rfl := Option.some.inj hc
    rfl
  · have hlength := length_le_writeTexts items
    exact readValue_writeTexts items ('\n' :: rest) 79 (by omega)

end Toml

end Mend
