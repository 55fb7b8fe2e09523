import Mend.Proofs.Json.Numerals
import Mend.Proofs.Json.Texts
import Mend.Proofs.Text.Lines

/-!
# The grammar of JSON

What a text has to be for a value to be read from it, said without the reader: a value is spelled by
its words, its digits, its quotes or its brackets, with white space around the parts
(`Json.Spells`). The reader accepts exactly what the grammar spells, with the same value
(`Json.read?_eq_some_iff`).

A number goes on as long as the text does, so what is said of the reader at a place inside of a text
asks that no number goes on there (`JsonNumber.Ends`).
-/

namespace Mend

namespace Json

/-! ## The grammar -/

/-- White space between tokens. -/
def IsGap (t : Text) : Prop := ∀ c ∈ t, isGap c = true

/-- A text after its opening quote, up to the quote that closes it, and what it stands for. -/
inductive SpellsText : Text → Text → Prop
  | close : SpellsText ['"'] []
  | plain {c : Char} {w s : Text} : c ≠ '"' → c ≠ '\\' → 0x20 ≤ c.toNat → SpellsText w s →
      SpellsText (c :: w) (c :: s)
  | letter {c d : Char} {w s : Text} : escape? c = some d → SpellsText w s →
      SpellsText ('\\' :: c :: w) (d :: s)
  | unicode {a b c d : Char} {n : Nat} {w s : Text} : hex4? a b c d = some n →
      isHighSurrogate n = false → isLowSurrogate n = false → SpellsText w s →
      SpellsText ('\\' :: 'u' :: a :: b :: c :: d :: w) (Char.ofNat n :: s)
  | pair {a b c d e f g h : Char} {n m : Nat} {w s : Text} : hex4? a b c d = some n →
      isHighSurrogate n = true → hex4? e f g h = some m → isLowSurrogate m = true →
      SpellsText w s →
      SpellsText ('\\' :: 'u' :: a :: b :: c :: d :: '\\' :: 'u' :: e :: f :: g :: h :: w)
        (Char.ofNat (0x10000 + (n - 0xD800) * 0x400 + (m - 0xDC00)) :: s)

/-- The name of a member, with white space around it. -/
inductive SpellsName : Text → Text → Prop
  | mk {gap w gap' name : Text} : IsGap gap → SpellsText w name → IsGap gap' →
      SpellsName (gap ++ '"' :: (w ++ gap')) name

mutual

/-- The text spells the value, which nests at most so deep. -/
inductive Spells : Nat → Text → Json → Prop
  | null {depth : Nat} : Spells depth "null".toList null
  | yes {depth : Nat} : Spells depth "true".toList (bool true)
  | no {depth : Nat} : Spells depth "false".toList (bool false)
  | number {depth : Nat} {w : Text} {n : JsonNumber} : JsonNumber.read? w = some (n, []) →
      Spells depth w (number n)
  | text {depth : Nat} {w s : Text} : SpellsText w s → Spells depth ('"' :: w) (text s)
  | emptyArray {depth : Nat} {gap : Text} : IsGap gap →
      Spells (depth + 1) ('[' :: (gap ++ [']'])) (array [])
  | array {depth : Nat} {w : Text} {vs : List Json} : SpellsItems depth w vs →
      Spells (depth + 1) ('[' :: (w ++ [']'])) (array vs)
  | emptyObject {depth : Nat} {gap : Text} : IsGap gap →
      Spells (depth + 1) ('\x7b' :: (gap ++ ['\x7d'])) (object [])
  | object {depth : Nat} {w : Text} {ms : List (Text × Json)} : SpellsMembers depth w ms →
      Spells (depth + 1) ('\x7b' :: (w ++ ['\x7d'])) (ofMembers ms)

/-- The text spells the value with white space around it. -/
inductive SpellsPadded : Nat → Text → Json → Prop
  | mk {depth : Nat} {gap w gap' : Text} {v : Json} : IsGap gap → Spells depth w v →
      IsGap gap' → SpellsPadded depth (gap ++ (w ++ gap')) v

/-- The text spells the items, with commas between them. -/
inductive SpellsItems : Nat → Text → List Json → Prop
  | last {depth : Nat} {w : Text} {v : Json} : SpellsPadded depth w v → SpellsItems depth w [v]
  | more {depth : Nat} {w u : Text} {v : Json} {vs : List Json} : SpellsPadded depth w v →
      SpellsItems depth u vs → SpellsItems depth (w ++ ',' :: u) (v :: vs)

/-- The text spells the members, with commas between them. -/
inductive SpellsMembers : Nat → Text → List (Text × Json) → Prop
  | last {depth : Nat} {k w name : Text} {v : Json} : SpellsName k name →
      SpellsPadded depth w v → SpellsMembers depth (k ++ ':' :: w) [(name, v)]
  | more {depth : Nat} {k w u name : Text} {v : Json} {ms : List (Text × Json)} :
      SpellsName k name → SpellsPadded depth w v → SpellsMembers depth u ms →
      SpellsMembers depth (k ++ ':' :: (w ++ ',' :: u)) ((name, v) :: ms)

end

/-! ## Gaps -/

theorem isGap_nil : IsGap [] := List.forall_mem_nil _

/-- What is skipped is white space. -/
theorem exists_skipGap (t : Text) : ∃ gap, t = gap ++ skipGap t ∧ IsGap gap :=
  ⟨t.takeWhile isGap, List.takeWhile_append_dropWhile.symm,
    fun c hc => List.all_eq_true.1 List.all_takeWhile c hc⟩

/-- No number goes on with white space, nor with a character that is in none. -/
theorem ends_gap_append {gap : Text} (hgap : IsGap gap) {t : Text} (ht : JsonNumber.Ends t) :
    JsonNumber.Ends (gap ++ t) := by
  cases gap with
  | nil => exact ht
  | cons c gap =>
    intro d hd
    obtain rfl : c = d := by simpa using hd
    have hspace : c = ' ' ∨ c = '\n' ∨ c = '\t' ∨ c = '\r' := by
      simpa [isGap, or_assoc] using hgap c (List.mem_cons_self ..)
    rcases hspace with rfl | rfl | rfl | rfl <;> decide

theorem ends_nil : JsonNumber.Ends [] := by
  intro c hc
  cases hc

theorem isGap_of_isNumeralChar {c : Char} (hc : JsonNumber.isNumeralChar c = true) :
    isGap c = false := by
  rw [Bool.eq_false_iff]
  intro hgap
  have hsingle : IsGap [c] := List.forall_mem_singleton.2 hgap
  have hends := ends_gap_append hsingle ends_nil c rfl
  rw [hc] at hends
  cases hends

/-- A token ends a number, also behind white space. -/
theorem ends_token {gap : Text} (hgap : IsGap gap) {c : Char}
    (hc : JsonNumber.isNumeralChar c = false) (t : Text) : JsonNumber.Ends (gap ++ c :: t) := by
  refine ends_gap_append hgap fun d hd => ?_
  obtain rfl : c = d := by simpa using hd
  exact hc

theorem readItems_skipGap (fuel depth : Nat) (t : Text) :
    readItems fuel depth (skipGap t) = readItems fuel depth t := by
  obtain ⟨gap, ht, hgap⟩ := exists_skipGap t
  calc readItems fuel depth (skipGap t) = readItems fuel depth (gap ++ skipGap t) :=
        (readItems_append hgap ..).symm
    _ = readItems fuel depth t := by rw [← ht]

theorem readMembers_skipGap (fuel depth : Nat) (t : Text) :
    readMembers fuel depth (skipGap t) = readMembers fuel depth t := by
  obtain ⟨gap, ht, hgap⟩ := exists_skipGap t
  calc readMembers fuel depth (skipGap t) = readMembers fuel depth (gap ++ skipGap t) :=
        (readMembers_append hgap ..).symm
    _ = readMembers fuel depth t := by rw [← ht]

/-! ## What is read is spelled -/

/-- What is read as a text is spelled so. -/
theorem exists_spellsText {t s rest : Text} (h : readText t = some (s, rest)) :
    ∃ w, t = w ++ rest ∧ SpellsText w s := by
  fun_induction readText t generalizing s with
  | case1 => cases h
  | case2 after =>
    obtain ⟨rfl, rfl⟩ := Prod.mk.inj (Option.some.inj h)
    exact ⟨['"'], rfl, .close⟩
  | case3 a b c d e f g k after ihpair ihsingle =>
    obtain ⟨n, hn, h⟩ := Option.bind_eq_some_iff.1 h
    split at h
    · rename_i hhigh
      obtain ⟨m, hm, h⟩ := Option.bind_eq_some_iff.1 h
      split at h
      · rename_i hlow
        obtain ⟨⟨more, rest'⟩, hmore, h⟩ := Option.bind_eq_some_iff.1 h
        obtain ⟨rfl, rfl⟩ := Prod.mk.inj (Option.some.inj h)
        obtain ⟨w, rfl, hw⟩ := ihpair hmore
        exact ⟨_, rfl, .pair hn hhigh hm hlow hw⟩
      · cases h
    · rename_i hhigh
      split at h
      · cases h
      · rename_i hlow
        obtain ⟨⟨more, rest'⟩, hmore, h⟩ := Option.bind_eq_some_iff.1 h
        obtain ⟨rfl, rfl⟩ := Prod.mk.inj (Option.some.inj h)
        obtain ⟨w, hw, hspells⟩ := ihsingle hmore
        rw [hw]
        exact ⟨_, rfl, .unicode hn (Bool.eq_false_iff.2 hhigh) (Bool.eq_false_iff.2 hlow) hspells⟩
  | case4 a b c d after _ ih =>
    obtain ⟨n, hn, h⟩ := Option.bind_eq_some_iff.1 h
    split at h
    · cases h
    · rename_i hhalf
      obtain ⟨⟨more, rest'⟩, hmore, h⟩ := Option.bind_eq_some_iff.1 h
      obtain ⟨rfl, rfl⟩ := Prod.mk.inj (Option.some.inj h)
      obtain ⟨w, rfl, hw⟩ := ih hmore
      simp only [Bool.or_eq_true, not_or, Bool.not_eq_true] at hhalf
      exact ⟨_, rfl, .unicode hn hhalf.1 hhalf.2 hw⟩
  | case5 c after _ _ ih =>
    obtain ⟨d, hd, h⟩ := Option.bind_eq_some_iff.1 h
    obtain ⟨⟨more, rest'⟩, hmore, h⟩ := Option.bind_eq_some_iff.1 h
    obtain ⟨rfl, rfl⟩ := Prod.mk.inj (Option.some.inj h)
    obtain ⟨w, rfl, hw⟩ := ih hmore
    exact ⟨_, rfl, .letter hd hw⟩
  | case6 => cases h
  | case7 c after hquote _ _ _ hplain ih =>
    obtain ⟨⟨more, rest'⟩, hmore, h⟩ := Option.bind_eq_some_iff.1 h
    obtain ⟨rfl, rfl⟩ := Prod.mk.inj (Option.some.inj h)
    obtain ⟨w, rfl, hw⟩ := ih hmore
    simp only [Bool.or_eq_true, not_or, decide_eq_true_eq, beq_iff_eq, Nat.not_lt] at hplain
    exact ⟨_, rfl, .plain hquote hplain.2 hplain.1 hw⟩

/-- A place at which a token or white space stands. -/
theorem exists_token {c : Char} {t rest : Text} (h : skipGap t = c :: rest) :
    ∃ gap, t = gap ++ c :: rest ∧ IsGap gap := by
  obtain ⟨gap, ht, hgap⟩ := exists_skipGap t
  rw [h] at ht
  exact ⟨gap, ht, hgap⟩

theorem isGap_append {gap gap' : Text} (h : IsGap gap) (h' : IsGap gap') : IsGap (gap ++ gap') :=
  List.forall_mem_append.2 ⟨h, h'⟩

theorem SpellsPadded.append {depth : Nat} {gap w : Text} {v : Json} (hgap : IsGap gap)
    (h : SpellsPadded depth w v) : SpellsPadded depth (gap ++ w) v := by
  obtain ⟨hfront, hv, hback⟩ := h
  rw [← List.append_assoc]
  exact .mk (isGap_append hgap hfront) hv hback

/-- White space in front of items is white space of the first one. -/
theorem SpellsItems.append {depth : Nat} {gap w : Text} {vs : List Json} (hgap : IsGap gap)
    (h : SpellsItems depth w vs) : SpellsItems depth (gap ++ w) vs := by
  cases h with
  | last hv => exact .last (hv.append hgap)
  | more hv hvs =>
    rw [← List.append_assoc]
    exact .more (hv.append hgap) hvs

theorem SpellsName.append {gap w name : Text} (hgap : IsGap gap) (h : SpellsName w name) :
    SpellsName (gap ++ w) name := by
  obtain ⟨hfront, hname, hback⟩ := h
  rw [← List.append_assoc]
  exact .mk (isGap_append hgap hfront) hname hback

/-- White space in front of members is white space of the first name. -/
theorem SpellsMembers.append {depth : Nat} {gap w : Text} {ms : List (Text × Json)}
    (hgap : IsGap gap) (h : SpellsMembers depth w ms) : SpellsMembers depth (gap ++ w) ms := by
  cases h with
  | last hname hv =>
    rw [← List.append_assoc]
    exact .last (hname.append hgap) hv
  | more hname hv hms =>
    rw [← List.append_assoc]
    exact .more (hname.append hgap) hv hms

mutual

/-- What is read as a value is spelled so. -/
theorem exists_spells : ∀ (fuel depth : Nat) {t rest : Text} {v : Json},
    readValue fuel depth t = some (v, rest) → JsonNumber.Ends rest →
    ∃ gap w, t = gap ++ (w ++ rest) ∧ IsGap gap ∧ Spells depth w v
  | 0, _, t, rest, v, h, _ => by
    rw [readValue] at h
    cases h
  | fuel + 1, depth, t, rest, v, h, hends => by
    obtain ⟨gap, ht, hgap⟩ := exists_skipGap t
    rw [readValue] at h
    split at h
    · rename_i heq
      rw [heq] at ht
      obtain ⟨rfl, rfl⟩ := Prod.mk.inj (Option.some.inj h)
      exact ⟨gap, _, ht, hgap, .null⟩
    · rename_i heq
      rw [heq] at ht
      obtain ⟨rfl, rfl⟩ := Prod.mk.inj (Option.some.inj h)
      exact ⟨gap, _, ht, hgap, .yes⟩
    · rename_i heq
      rw [heq] at ht
      obtain ⟨rfl, rfl⟩ := Prod.mk.inj (Option.some.inj h)
      exact ⟨gap, _, ht, hgap, .no⟩
    · rename_i heq
      rw [heq] at ht
      obtain ⟨⟨s, after⟩, hread, hpair⟩ := Option.map_eq_some_iff.1 h
      obtain ⟨rfl, rfl⟩ := Prod.mk.inj hpair
      obtain ⟨w, rfl, hw⟩ := exists_spellsText hread
      exact ⟨gap, _, ht, hgap, .text hw⟩
    · rename_i body heq
      rw [heq] at ht
      split at h
      · cases h
      rename_i depth
      split at h
      · rename_i hclose
        obtain ⟨rfl, rfl⟩ := Prod.mk.inj (Option.some.inj h)
        obtain ⟨inner, rfl, hinner⟩ := exists_token hclose
        exact ⟨gap, _, by simpa using ht, hgap, .emptyArray hinner⟩
      · obtain ⟨⟨vs, after⟩, hread, hpair⟩ := Option.map_eq_some_iff.1 h
        obtain ⟨rfl, rfl⟩ := Prod.mk.inj hpair
        obtain ⟨w, hw, hitems⟩ := exists_spellsItems fuel depth hread
        obtain ⟨inner, hbody, hinner⟩ := exists_skipGap body
        rw [hbody, hw] at ht
        exact ⟨gap, _, by simpa using ht, hgap, .array (hitems.append hinner)⟩
    · rename_i body heq
      rw [heq] at ht
      split at h
      · cases h
      rename_i depth
      split at h
      · rename_i hclose
        obtain ⟨rfl, rfl⟩ := Prod.mk.inj (Option.some.inj h)
        obtain ⟨inner, rfl, hinner⟩ := exists_token hclose
        exact ⟨gap, _, by simpa using ht, hgap, .emptyObject hinner⟩
      · obtain ⟨⟨ms, after⟩, hread, hpair⟩ := Option.map_eq_some_iff.1 h
        obtain ⟨rfl, rfl⟩ := Prod.mk.inj hpair
        obtain ⟨w, hw, hmembers⟩ := exists_spellsMembers fuel depth hread
        obtain ⟨inner, hbody, hinner⟩ := exists_skipGap body
        rw [hbody, hw] at ht
        exact ⟨gap, _, by simpa using ht, hgap, .object (hmembers.append hinner)⟩
    · obtain ⟨⟨n, after⟩, hread, hpair⟩ := Option.map_eq_some_iff.1 h
      obtain ⟨rfl, rfl⟩ := Prod.mk.inj hpair
      obtain ⟨w, hw, hnumber, -⟩ := JsonNumber.exists_read? hread hends
      rw [hw] at ht
      exact ⟨gap, w, ht, hgap, .number hnumber⟩

/-- What is read as items, with the bracket after them, is spelled so. -/
theorem exists_spellsItems : ∀ (fuel depth : Nat) {t rest : Text} {vs : List Json},
    readItems fuel depth t = some (vs, rest) →
    ∃ w, t = w ++ ']' :: rest ∧ SpellsItems depth w vs
  | 0, _, t, rest, vs, h => by
    rw [readItems] at h
    cases h
  | fuel + 1, depth, t, rest, vs, h => by
    rw [readItems] at h
    obtain ⟨⟨v, after⟩, hvalue, h⟩ := Option.bind_eq_some_iff.1 h
    dsimp only at h
    split at h
    · rename_i hclose
      obtain ⟨rfl, rfl⟩ := Prod.mk.inj (Option.some.inj h)
      obtain ⟨back, rfl, hback⟩ := exists_token hclose
      obtain ⟨gap, w, rfl, hgap, hw⟩ :=
        exists_spells fuel depth hvalue (ends_token hback (by decide) _)
      exact ⟨_, by simp, .last (.mk hgap hw hback)⟩
    · rename_i u hcomma
      obtain ⟨⟨vs', after'⟩, hread, hpair⟩ := Option.bind_eq_some_iff.1 h
      obtain ⟨rfl, rfl⟩ := Prod.mk.inj (Option.some.inj hpair)
      obtain ⟨back, rfl, hback⟩ := exists_token hcomma
      obtain ⟨gap, w, rfl, hgap, hw⟩ :=
        exists_spells fuel depth hvalue (ends_token hback (by decide) _)
      obtain ⟨u, rfl, hitems⟩ := exists_spellsItems fuel depth hread
      exact ⟨_, by simp, .more (.mk hgap hw hback) hitems⟩
    · cases h

/-- What is read as members, with the brace after them, is spelled so. -/
theorem exists_spellsMembers : ∀ (fuel depth : Nat) {t rest : Text} {ms : List (Text × Json)},
    readMembers fuel depth t = some (ms, rest) →
    ∃ w, t = w ++ '\x7d' :: rest ∧ SpellsMembers depth w ms
  | 0, _, t, rest, ms, h => by
    rw [readMembers] at h
    cases h
  | fuel + 1, depth, t, rest, ms, h => by
    rw [readMembers] at h
    split at h
    · rename_i hquote
      obtain ⟨front, rfl, hfront⟩ := exists_token hquote
      obtain ⟨⟨name, after⟩, hname, hafter⟩ := Option.bind_eq_some_iff.1 h
      obtain ⟨k, rfl, hk⟩ := exists_spellsText hname
      dsimp only at hafter
      split at hafter
      · rename_i hcolon
        obtain ⟨middle, rfl, hmiddle⟩ := exists_token hcolon
        obtain ⟨⟨v, after'⟩, hvalue, hafter⟩ := Option.bind_eq_some_iff.1 hafter
        dsimp only at hafter
        split at hafter
        · rename_i hclose
          obtain ⟨rfl, rfl⟩ := Prod.mk.inj (Option.some.inj hafter)
          obtain ⟨back, rfl, hback⟩ := exists_token hclose
          obtain ⟨gap, w, rfl, hgap, hw⟩ :=
            exists_spells fuel depth hvalue (ends_token hback (by decide) _)
          exact ⟨_, by simp, .last (.mk hfront hk hmiddle) (.mk hgap hw hback)⟩
        · rename_i u hcomma
          obtain ⟨⟨ms', after'⟩, hread, hpair⟩ := Option.bind_eq_some_iff.1 hafter
          obtain ⟨rfl, rfl⟩ := Prod.mk.inj (Option.some.inj hpair)
          obtain ⟨back, rfl, hback⟩ := exists_token hcomma
          obtain ⟨gap, w, rfl, hgap, hw⟩ :=
            exists_spells fuel depth hvalue (ends_token hback (by decide) _)
          obtain ⟨u, rfl, hmembers⟩ := exists_spellsMembers fuel depth hread
          exact ⟨_, by simp, .more (.mk hfront hk hmiddle) (.mk hgap hw hback) hmembers⟩
        · cases hafter
      · cases hafter
    · cases h

end

/-! ## What is spelled is read -/

/-- A text is read up to the quote that closes it. -/
theorem SpellsText.reads {w s : Text} (h : SpellsText w s) (rest : Text) :
    readText (w ++ rest) = some (s, rest) := by
  induction h with
  | close => exact readText_quote rest
  | plain hquote hslash hlow _ ih =>
    rw [List.cons_append, readText_plain hquote hslash (Nat.not_lt.2 hlow), ih]
    rfl
  | letter hd _ ih =>
    rw [List.cons_append, List.cons_append, readText_escape hd, ih]
    rfl
  | unicode hn hhigh hlow _ ih =>
    simp only [List.cons_append]
    rw [readText_unicode hn hhigh hlow, ih]
    rfl
  | pair hn hhigh hm hlow _ ih =>
    simp only [List.cons_append]
    rw [readText, hn, hm]
    simp only [Option.bind_eq_bind, Option.bind_some, hhigh, hlow, if_true, ih]
    rfl

/-- What starts as a number is read as one. -/
theorem readValue_number {t rest : Text} {n : JsonNumber}
    (h : JsonNumber.read? t = some (n, rest)) (fuel depth : Nat) :
    readValue (fuel + 1) depth t = some (number n, rest) := by
  obtain ⟨c, u, rfl, hc⟩ := JsonNumber.exists_cons_of_read? h
  -- none of the other values starts with a character of a number
  have hother : ∀ d ∈ ['n', 't', 'f', '"', '[', '\x7b'], c ≠ d := by
    have hnone : ∀ d ∈ ['n', 't', 'f', '"', '[', '\x7b'], JsonNumber.isNumeralChar d = false :=
      Text.forall_mem_of_all (by decide)
    rintro d hd rfl
    rw [hnone c hd] at hc
    cases hc
  rw [readValue, skipGap_cons (isGap_of_isNumeralChar hc)]
  split <;> simp_all

/-- A value starts with no white space and closes no brackets. -/
theorem Spells.exists_cons {depth : Nat} {w : Text} {v : Json} (h : Spells depth w v) :
    ∃ c u, w = c :: u ∧ isGap c = false ∧ c ≠ ']' := by
  cases h with
  | null => exact ⟨_, _, rfl, by decide, by decide⟩
  | yes => exact ⟨_, _, rfl, by decide, by decide⟩
  | no => exact ⟨_, _, rfl, by decide, by decide⟩
  | number hn =>
    obtain ⟨c, u, rfl, hc⟩ := JsonNumber.exists_cons_of_read? hn
    refine ⟨c, u, rfl, isGap_of_isNumeralChar hc, ?_⟩
    rintro rfl
    cases hc
  | text => exact ⟨_, _, rfl, by decide, by decide⟩
  | emptyArray => exact ⟨_, _, rfl, by decide, by decide⟩
  | array => exact ⟨_, _, rfl, by decide, by decide⟩
  | emptyObject => exact ⟨_, _, rfl, by decide, by decide⟩
  | object => exact ⟨_, _, rfl, by decide, by decide⟩

theorem SpellsItems.exists_head {depth : Nat} {w : Text} {vs : List Json}
    (h : SpellsItems depth w vs) (rest : Text) : ∃ c u, skipGap (w ++ rest) = c :: u ∧ c ≠ ']' := by
  have hpadded : ∀ {u : Text} {v : Json}, SpellsPadded depth u v → ∀ rest,
      ∃ c t, skipGap (u ++ rest) = c :: t ∧ c ≠ ']' := by
    rintro u v ⟨hgap, hv, -⟩ rest
    obtain ⟨c, t, rfl, hc, hne⟩ := hv.exists_cons
    rw [List.append_assoc, List.append_assoc, skipGap_append hgap]
    exact ⟨c, _, skipGap_cons hc _, hne⟩
  cases h with
  | last hv => exact hpadded hv rest
  | more hv =>
    rw [List.append_assoc]
    exact hpadded hv _

theorem SpellsMembers.exists_head {depth : Nat} {w : Text} {ms : List (Text × Json)}
    (h : SpellsMembers depth w ms) (rest : Text) : ∃ u, skipGap (w ++ rest) = '"' :: u := by
  have hname : ∀ {k name : Text}, SpellsName k name → ∀ rest, ∃ u, skipGap (k ++ rest) = '"' :: u := by
    rintro k name ⟨hgap, -, -⟩ rest
    rw [List.append_assoc, skipGap_append hgap]
    exact ⟨_, skipGap_cons (by decide) _⟩
  cases h with
  | last hk => rw [List.append_assoc]; exact hname hk _
  | more hk => rw [List.append_assoc]; exact hname hk _

mutual

/-- A spelled value is read, whatever stands behind it. -/
theorem Spells.reads : ∀ {depth : Nat} {w : Text} {v : Json}, Spells depth w v →
    ∀ (fuel : Nat) {rest : Text}, 2 * w.length ≤ fuel → JsonNumber.Ends rest →
    readValue fuel depth (w ++ rest) = some (v, rest)
  | _, _, _, .null, fuel + 1, rest, _, _ => by simp [readValue, skipGap, isGap]
  | _, _, _, .yes, fuel + 1, rest, _, _ => by simp [readValue, skipGap, isGap]
  | _, _, _, .no, fuel + 1, rest, _, _ => by simp [readValue, skipGap, isGap]
  | _, _, _, .number hn, fuel + 1, rest, _, hends => by
    refine readValue_number ?_ fuel _
    rw [JsonNumber.read?_append hends, hn]
    rfl
  | _, _, _, .text hs, fuel + 1, rest, _, _ => by
    have hquote : isGap '"' = false := by decide
    rw [List.cons_append, readValue, skipGap_cons hquote]
    simp only [hs.reads rest]
    rfl
  | _, _, _, .emptyArray hgap, fuel + 1, rest, _, _ => by
    rw [List.cons_append, List.append_assoc, readValue, skipGap_cons (by decide)]
    simp only [skipGap_append hgap, List.singleton_append, skipGap_cons (c := ']') (by decide)]
  | _, _, _, .array hitems, fuel + 1, rest, hfuel, _ => by
    obtain ⟨c, u, hskip, hne⟩ := hitems.exists_head (']' :: rest)
    simp only [List.length_cons, List.length_append, List.length_nil] at hfuel
    rw [List.cons_append, List.append_assoc, List.singleton_append, readValue_array hskip hne,
      ← hskip, readItems_skipGap, hitems.reads fuel rest (by omega)]
    rfl
  | _, _, _, .emptyObject hgap, fuel + 1, rest, _, _ => by
    rw [List.cons_append, List.append_assoc, readValue, skipGap_cons (by decide)]
    simp only [skipGap_append hgap, List.singleton_append, skipGap_cons (c := '\x7d') (by decide)]
  | _, _, _, .object hmembers, fuel + 1, rest, hfuel, _ => by
    obtain ⟨u, hskip⟩ := hmembers.exists_head ('\x7d' :: rest)
    simp only [List.length_cons, List.length_append, List.length_nil] at hfuel
    rw [List.cons_append, List.append_assoc, List.singleton_append, readValue_object hskip,
      ← hskip, readMembers_skipGap, hmembers.reads fuel rest (by omega)]
    rfl
  | _, _, _, h, 0, rest, hfuel, _ => by
    obtain ⟨c, u, rfl, -⟩ := h.exists_cons
    simp at hfuel

/-- Spelled items are read up to the bracket behind them. -/
theorem SpellsItems.reads : ∀ {depth : Nat} {w : Text} {vs : List Json},
    SpellsItems depth w vs → ∀ (fuel : Nat) (rest : Text), 2 * w.length + 1 ≤ fuel →
    readItems fuel depth (w ++ ']' :: rest) = some (vs, rest)
  | _, _, _, .last (.mk hgap hv hback), fuel + 1, rest, hfuel => by
    simp only [List.length_append] at hfuel
    have hends := ends_token hback (c := ']') (by decide) rest
    simp only [List.append_assoc, readItems, readValue_append hgap, hv.reads fuel (by omega) hends,
      Option.bind_eq_bind, Option.bind_some, skipGap_append hback,
      skipGap_cons (c := ']') (by decide)]
    rfl
  | _, _, _, .more (.mk hgap hv hback) hitems, fuel + 1, rest, hfuel => by
    simp only [List.length_append, List.length_cons] at hfuel
    have hends := fun t => ends_token hback (c := ',') (by decide) t
    simp only [List.append_assoc, List.cons_append, readItems, readValue_append hgap,
      hv.reads fuel (by omega) (hends _), Option.bind_eq_bind, Option.bind_some, skipGap_append hback,
      skipGap_cons (c := ',') (by decide), hitems.reads fuel rest (by omega)]
    rfl

/-- Spelled members are read up to the brace behind them. -/
theorem SpellsMembers.reads : ∀ {depth : Nat} {w : Text} {ms : List (Text × Json)},
    SpellsMembers depth w ms → ∀ (fuel : Nat) (rest : Text), 2 * w.length + 1 ≤ fuel →
    readMembers fuel depth (w ++ '\x7d' :: rest) = some (ms, rest)
  | _, _, _, .last (.mk hfront hk hmiddle) (.mk hgap hv hback), fuel + 1, rest, hfuel => by
    simp only [List.length_append, List.length_cons] at hfuel
    have hends := ends_token hback (c := '\x7d') (by decide) rest
    simp only [List.append_assoc, List.cons_append, readMembers, skipGap_append hfront,
      skipGap_cons (c := '"') (by decide), hk.reads, Option.bind_eq_bind, Option.bind_some,
      skipGap_append hmiddle, skipGap_cons (c := ':') (by decide), readValue_append hgap,
      hv.reads fuel (by omega) hends, skipGap_append hback, skipGap_cons (c := '\x7d') (by decide)]
    rfl
  | _, _, _, .more (.mk hfront hk hmiddle) (.mk hgap hv hback) hmembers, fuel + 1, rest, hfuel => by
    simp only [List.length_append, List.length_cons] at hfuel
    have hends := fun t => ends_token hback (c := ',') (by decide) t
    simp only [List.append_assoc, List.cons_append, readMembers, skipGap_append hfront,
      skipGap_cons (c := '"') (by decide), hk.reads, Option.bind_eq_bind, Option.bind_some,
      skipGap_append hmiddle, skipGap_cons (c := ':') (by decide), readValue_append hgap,
      hv.reads fuel (by omega) (hends _), skipGap_append hback, skipGap_cons (c := ',') (by decide),
      hmembers.reads fuel rest (by omega)]
    rfl

end

/-- The reader accepts exactly what spells a value, and reads that value. -/
theorem read?_eq_some_iff {t : Text} {v : Json} :
    read? t = some v ↔ SpellsPadded maxDepth t v := by
  constructor
  · intro h
    rw [read?] at h
    split at h
    · rename_i v' rest hread
      split at h
      · rename_i hrest
        obtain rfl : v' = v := Option.some.inj h
        have hnil : skipGap rest = [] := List.isEmpty_iff.1 hrest
        obtain ⟨back, hback, hgap⟩ := exists_skipGap rest
        rw [hnil, List.append_nil] at hback
        subst hback
        have hends := ends_gap_append hgap ends_nil
        rw [List.append_nil] at hends
        obtain ⟨gap, w, rfl, hfront, hw⟩ := exists_spells _ _ hread hends
        exact .mk hfront hw hgap
      · cases h
    · cases h
  · rintro ⟨hgap, hv, hback⟩
    rename_i gap w back
    have hends := ends_gap_append hback ends_nil
    rw [List.append_nil] at hends
    have hread := hv.reads (2 * (gap ++ (w ++ back)).length + 2)
      (by simp only [List.length_append]; omega) hends
    have hrest : skipGap back = [] := by
      have hskip := skipGap_append hback []
      rw [List.append_nil] at hskip
      exact hskip
    rw [read?, readValue_append hgap, hread]
    dsimp only
    rw [hrest]
    rfl

end Json

end Mend
