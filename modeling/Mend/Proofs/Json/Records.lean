import Mend.Json.Record
import Mend.Lookup
import Mend.Proofs.Json.RoundTrip
import Mend.Proofs.Json.WholeNumbers

/-!
# Records read back

The indented form of an object reads as a record with its members, when every member is a field of
the form with a value that is read from where it is written (`FieldKind.Reads`) and no field that
must be there is missing (`RecordForm.read_pretty`). Texts are read whatever characters they hold,
so are lists of texts, and whole numbers of 32 bits.

A comma or the end of a line follows every value of such a form.
-/

namespace Mend

namespace Json

/-! ## Text values -/

/-- The escape of one letter is passed over. -/
theorem skipTextFrom_escape {c d : Char} (h : escape? c = some d) (fuel : Nat) (rest : Text) :
    skipTextFrom .strict (fuel + 1) ('\\' :: c :: rest) = skipTextFrom .strict fuel rest := by
  have hu : c ≠ 'u' := by
    rintro rfl
    cases h
  rw [skipTextFrom, skipEscape]
  · rw [h]
  · exact hu

/-- So is the escape of a control character. -/
theorem skipTextFrom_unicode {a b c d : Char} {n : Nat} (h : hex4? a b c d = some n)
    (hn : n < 0xD800) (fuel : Nat) (rest : Text) :
    skipTextFrom .strict (fuel + 1) ('\\' :: 'u' :: a :: b :: c :: d :: rest)
      = skipTextFrom .strict fuel rest := by
  have hhigh : isHighSurrogate n = false := by
    simp only [isHighSurrogate, Bool.and_eq_false_iff, decide_eq_false_iff_not]
    omega
  have hlow : isLowSurrogate n = false := by
    simp only [isLowSurrogate, Bool.and_eq_false_iff, decide_eq_false_iff_not]
    omega
  have hcode : skipCode (a :: b :: c :: d :: rest) = .ok (n, rest) := by
    rw [skipCode]
    simp only [h]
  rw [skipTextFrom, skipEscape, hcode]
  simp only [bind, Except.bind, hhigh, hlow, Bool.false_eq_true, if_false]

theorem skipTextFrom_plain {c : Char} (hquote : c ≠ '"') (hslash : c ≠ '\\')
    (hlow : ¬ c.toNat < 0x20) (fuel : Nat) (rest : Text) :
    skipTextFrom .strict (fuel + 1) (c :: rest) = skipTextFrom .strict fuel rest := by
  rw [skipTextFrom]
  · rw [if_pos (Nat.le_of_not_lt hlow)]
  · exact hquote
  · exact hslash

/-- What is written for a character is passed over in one step. -/
theorem skipTextFrom_writeChar (c : Char) (fuel : Nat) (rest : Text) :
    skipTextFrom .strict (fuel + 1) (writeChar c ++ rest) = skipTextFrom .strict fuel rest := by
  unfold writeChar
  split
  · exact skipTextFrom_escape rfl fuel rest
  split
  · exact skipTextFrom_escape rfl fuel rest
  split
  · exact skipTextFrom_escape rfl fuel rest
  split
  · exact skipTextFrom_escape rfl fuel rest
  split
  · exact skipTextFrom_escape rfl fuel rest
  split
  · exact skipTextFrom_escape rfl fuel rest
  split
  · exact skipTextFrom_escape rfl fuel rest
  split
  · rename_i h
    exact skipTextFrom_unicode (hex4?_control c.toNat h) (by omega) fuel rest
  · rename_i hquote hslash _ _ _ _ _ hlow
    exact skipTextFrom_plain hquote hslash hlow fuel rest

theorem writeChar_ne_nil (c : Char) : writeChar c ≠ [] := by
  unfold writeChar
  repeat' split
  all_goals exact List.cons_ne_nil _ _

/-- What is written for a text is read, and nothing behind its closing quote. -/
theorem scanText_flatMap_writeChar (t rest : Text) :
    scanText (t.flatMap writeChar ++ '"' :: rest) = .ok (t, rest) := by
  have hskip : ∀ fuel, (t.flatMap writeChar).length < fuel →
      skipTextFrom .strict fuel (t.flatMap writeChar ++ '"' :: rest) = .ok rest := by
    induction t with
    | nil =>
      rintro (_ | fuel) hfuel
      · cases hfuel
      · rfl
    | cons c t ih =>
      rintro (_ | fuel) hfuel
      · cases hfuel
      · have hlength := List.length_pos_iff.2 (writeChar_ne_nil c)
        rw [List.flatMap_cons, List.length_append] at hfuel
        rw [List.flatMap_cons, List.append_assoc, skipTextFrom_writeChar]
        exact ih fuel (by omega)
  have htext : skipText .strict (t.flatMap writeChar ++ '"' :: rest) = .ok rest :=
    hskip _ (by rw [List.length_append, List.length_cons]; omega)
  rw [scanText, htext, readText_flatMap_writeChar]
  rfl

theorem writeText_append (t rest : Text) :
    writeText t ++ rest = '"' :: (t.flatMap writeChar ++ '"' :: rest) := by
  simp [writeText]

/-- No white space stands before a text. -/
theorem skipGap_writeText (t rest : Text) : skipGap (writeText t ++ rest) = writeText t ++ rest := by
  rw [writeText_append]
  exact skipGap_cons (by decide) _

/-- A text is read from its written form, after white space. -/
theorem scanString_writeText {gap : Text} (hgap : ∀ c ∈ gap, isGap c = true) (expected t rest : Text) :
    scanString expected (gap ++ (writeText t ++ rest)) = .ok (t, rest) := by
  rw [scanString, skipGap_append hgap, skipGap_writeText, writeText_append]
  exact scanText_flatMap_writeChar t rest

/-! ## Whole numbers -/

/-- A comma or the end of a line: what follows the value of a member. -/
def IsStop (c : Char) : Prop := c = ',' ∨ c = '\n'

theorem dropWhile_digits {digits : Text} (hdigits : ∀ c ∈ digits, c.isDigit = true) {c : Char}
    (hc : c.isDigit = false) (rest : Text) :
    (digits ++ c :: rest).dropWhile Char.isDigit = c :: rest := by
  rw [List.dropWhile_append_of_pos hdigits, List.dropWhile_cons_of_neg (by simp [hc])]

section Numbers

variable {c : Char} (hc : IsStop c) (rest : Text)

include hc

theorem IsStop.isDigit : c.isDigit = false := by
  rcases hc with rfl | rfl <;> rfl

/-- Neither a fraction nor an exponent starts there. -/
theorem skipFraction_stop : skipFraction .strict (c :: rest) = .ok (c :: rest) := by
  rcases hc with rfl | rfl <;> rfl

theorem skipNumber_ofNat (n : Nat) :
    skipNumber .strict (Text.ofNat n ++ c :: rest) = .ok (c :: rest) := by
  rcases ofNat_cases n with hzero | ⟨d, digits, hn, hd, hne, hdigits⟩
  · have hhead : ((c :: rest).head?.any Char.isDigit) = false := by simp [hc.isDigit]
    rw [hzero, List.singleton_append, skipNumber, skipUnsigned, hhead]
    · exact skipFraction_stop hc rest
    · nofun
  · have hall : ∀ e ∈ d :: digits, e.isDigit = true := List.forall_mem_cons.2 ⟨hd, hdigits⟩
    have hdigit : ((d :: digits ++ c :: rest).head?.any Char.isDigit) = true := by simp [hd]
    have hskip : skipDigits .strict (d :: digits ++ c :: rest) = .ok (c :: rest) := by
      rw [skipDigits, if_pos hdigit, dropWhile_digits hall hc.isDigit]
    rw [hn, skipNumber, skipUnsigned, hskip]
    · exact skipFraction_stop hc rest
    · rintro u hu
      exact hne (List.cons.inj hu).1
    · rintro u hu
      rw [(List.cons.inj hu).1] at hd
      cases hd

theorem read?_ofNat {n : Nat} (hn : n < JsonNumber.wordBound) :
    JsonNumber.read? (Text.ofNat n ++ c :: rest) = some (.nat n, c :: rest) := by
  have hends : JsonNumber.Ends (c :: rest) := by
    intro d hd
    obtain rfl : c = d := by simpa using hd
    rcases hc with rfl | rfl <;> rfl
  have hread : JsonNumber.read? (Text.ofNat n) = some (.nat n, []) :=
    JsonNumber.read?_write (n := .nat n) hn
  rw [JsonNumber.read?_append hends, hread]
  rfl

end Numbers

theorem skipGap_space (t : Text) : skipGap (' ' :: t) = skipGap t := rfl

theorem isGap_newLine (level : Nat) : ∀ c ∈ newLine level, isGap c = true :=
  Layout.indented.isGap_line level

theorem length_le_prettyItems (level : Nat) (vs : List Json) :
    vs.length ≤ (prettyItems level vs).length := by
  induction vs with
  | nil => exact Nat.zero_le _
  | cons v vs ih =>
    simp only [prettyItems, List.cons_append, List.length_cons, List.length_append]
    omega

/-- An array that starts with a text is read item by item. -/
theorem scanArray_items {t u : Text} (h : skipGap t = '"' :: u) : scanArray (' ' :: '[' :: t)
      = (scanTexts (('"' :: u).length + 1) ('"' :: u)).map fun p => (.array p.1, p.2) := by
  have hbracket : skipGap ('[' :: t) = '[' :: t := skipGap_cons (by decide) t
  rw [scanArray, skipGap_space, hbracket]
  simp only [h]
  rfl

/-- Texts are read up to the bracket behind them. -/
theorem scanTexts_pretty (t : Text) (ts : List Text) (level outer : Nat) (rest : Text) {fuel : Nat}
    (hfuel : ts.length < fuel) :
    scanTexts fuel (writeText t ++ (prettyItems level (ts.map .text) ++
        (newLine outer ++ ']' :: rest)))
      = .ok ((t :: ts).map .text, rest) := by
  induction ts generalizing t fuel with
  | nil =>
    obtain ⟨fuel, rfl⟩ : ∃ n, fuel = n + 1 := ⟨fuel - 1, by omega⟩
    have hstring := scanString_writeText (List.forall_mem_nil _) textName t
      (newLine outer ++ ']' :: rest)
    have hbracket : skipGap (newLine outer ++ ']' :: rest) = ']' :: rest := by
      rw [skipGap_append (isGap_newLine outer)]
      rfl
    rw [List.nil_append] at hstring
    rw [List.map_nil, prettyItems, List.nil_append, scanTexts, hstring]
    simp only [bind, Except.bind, hbracket]
    rfl
  | cons u ts ih =>
    obtain ⟨fuel, rfl⟩ : ∃ n, fuel = n + 1 := ⟨fuel - 1, by omega⟩
    rw [List.length_cons] at hfuel
    have hstring := scanString_writeText (List.forall_mem_nil _) textName t
      (',' :: (newLine level ++ (writeText u ++ (prettyItems level (ts.map .text) ++
        (newLine outer ++ ']' :: rest)))))
    have hmore : skipGap (newLine level ++ (writeText u ++ (prettyItems level (ts.map .text) ++
          (newLine outer ++ ']' :: rest))))
        = '"' :: (u.flatMap writeChar ++ '"' :: (prettyItems level (ts.map .text) ++
          (newLine outer ++ ']' :: rest))) := by
      rw [skipGap_append (isGap_newLine level), skipGap_writeText, writeText_append]
    have hrest := ih u (Nat.lt_of_succ_lt_succ hfuel)
    rw [writeText_append] at hrest
    rw [List.nil_append] at hstring
    have hcomma : skipGap (',' :: (newLine level ++ (writeText u ++
          (prettyItems level (ts.map .text) ++ (newLine outer ++ ']' :: rest)))))
        = ',' :: (newLine level ++ (writeText u ++
          (prettyItems level (ts.map .text) ++ (newLine outer ++ ']' :: rest)))) :=
      skipGap_cons (by decide) _
    have hitems : prettyItems level ((u :: ts).map .text) ++ (newLine outer ++ ']' :: rest)
        = ',' :: (newLine level ++ (writeText u ++ (prettyItems level (ts.map .text) ++
          (newLine outer ++ ']' :: rest)))) := by
      simp [prettyItems, prettyAt, compact]
    rw [hitems, scanTexts, hstring]
    simp only [bind, Except.bind, hcomma, hmore]
    change Except.bind (scanTexts fuel ('"' :: _)) _ = _
    rw [hrest]
    rfl

end Json

namespace FieldKind

/-- A value is read where it is written, behind a blank and with a stop after it. -/
def Reads (k : FieldKind) (v : Json) : Prop :=
  ∀ level c rest, Json.IsStop c →
    k.scan (' ' :: (v.prettyAt level ++ c :: rest)) = .ok (v, c :: rest)

open Json

theorem reads_text (t : Text) : Reads .text (.text t) := by
  intro level c rest _
  have hstring := scanString_writeText Layout.indented.isGap_space textName t (c :: rest)
  rw [Layout.indented_space, List.singleton_append] at hstring
  rw [prettyAt, compact, scan, hstring]
  rfl

theorem reads_null : Reads .optionalText .null := by
  intro level c rest _
  rw [prettyAt]
  rfl

theorem reads_optionalText (t : Text) : Reads .optionalText (.text t) := by
  intro level c rest _
  have hstring := scanString_writeText (List.forall_mem_nil _) textName t (c :: rest)
  rw [List.nil_append, writeText_append] at hstring
  rw [prettyAt, compact, scan, scanOptional, skipGap_space, skipGap_writeText, writeText_append]
  change (scanString textName ('"' :: _)).map _ = _
  rw [hstring]
  rfl

theorem reads_oneOf {name : Text} {names : List Text} (h : name ∈ names) :
    Reads (.oneOf names) (.text name) := by
  intro level c rest _
  have hstring := scanString_writeText (List.forall_mem_nil _) "variant identifier".toList name
    (c :: rest)
  rw [List.nil_append, writeText_append] at hstring
  have hname : scanName names ('"' :: (name.flatMap writeChar ++ '"' :: c :: rest))
      = .ok (name, c :: rest) := by
    rw [scanName, hstring]
    simp only [bind, Except.bind, if_pos h]
    rfl
  rw [prettyAt, compact, scan, scanChoice, skipGap_space, skipGap_writeText, writeText_append]
  change (scanName names ('"' :: _)).map _ = _
  rw [hname]
  rfl

theorem reads_word {n : Nat} (h : n < 2 ^ 32) : Reads .word (.number (.nat n)) := by
  intro level c rest hc
  have hread := read?_ofNat hc rest (Nat.lt_trans h (by decide : 2 ^ 32 < JsonNumber.wordBound))
  have hskip := skipNumber_ofNat hc rest n
  obtain ⟨d, digits, hn⟩ := List.exists_cons_of_ne_nil (Text.ofNat_ne_nil n)
  have hd : d.isDigit = true := Text.isDigit_of_mem_ofNat (hn ▸ List.mem_cons_self ..)
  have hgap : isGap d = false := by
    rw [Bool.eq_false_iff]
    intro hgap
    have hcases : ((d = ' ' ∨ d = '\n') ∨ d = '\t') ∨ d = '\r' := by simpa [isGap] using hgap
    rcases hcases with ((rfl | rfl) | rfl) | rfl <;> cases hd
  rw [hn, List.cons_append] at hread hskip
  have hnumber : scanNumber (d :: (digits ++ c :: rest)) = .ok (.nat n, c :: rest) := by
    rw [scanNumber, hskip]
    simp only [bind, Except.bind, hread]
    rfl
  have hstarts : startsNumber d = true := by simp [startsNumber, hd]
  rw [prettyAt, compact, JsonNumber.write, hn, scan, scanWord, scanNumeral, skipGap_space,
    List.cons_append, skipGap_cons hgap]
  dsimp only
  rw [if_pos hstarts, hnumber]
  simp only [bind, Except.bind, if_pos h]
  rfl

theorem reads_texts (ts : List Text) : Reads .texts (.array (ts.map .text)) := by
  intro level c rest _
  cases ts with
  | nil =>
    rw [List.map_nil, prettyAt]
    rfl
  | cons t ts =>
    have hwritten : (Json.array ((t :: ts).map .text)).prettyAt level ++ c :: rest
        = '[' :: (newLine (level + 1) ++ (writeText t ++ (prettyItems (level + 1) (ts.map .text) ++
          (newLine level ++ ']' :: c :: rest)))) := by
      simp [prettyAt, compact]
    have hitems : skipGap (newLine (level + 1) ++ (writeText t ++
          (prettyItems (level + 1) (ts.map .text) ++ (newLine level ++ ']' :: c :: rest))))
        = '"' :: (t.flatMap writeChar ++ '"' :: (prettyItems (level + 1) (ts.map .text) ++
          (newLine level ++ ']' :: c :: rest))) := by
      rw [skipGap_append (isGap_newLine _), skipGap_writeText, writeText_append]
    have hfuel := length_le_prettyItems (level + 1) (ts.map .text)
    rw [List.length_map] at hfuel
    rw [hwritten, scan, scanArray_items hitems, ← writeText_append, scanTexts_pretty]
    · rfl
    · simp only [List.length_append, List.length_cons]
      omega

end FieldKind

namespace RecordForm

open Json

/-- A member of a form: it names a field that reads its value. -/
def HasMember (form : RecordForm) (m : Text × Json) : Prop :=
  ∃ field, form.fields.find? (fun f => f.name = m.1) = some field ∧ field.kind.Reads m.2

variable {form : RecordForm} {found ms : Values} {k : Text} {v : Json}

/-- The value of a member that was not found before is read. -/
theorem scanMember_eq (hmember : form.HasMember (k, v)) (hfresh : k ∉ found.map Prod.fst)
    (level : Nat) {c : Char} (hc : IsStop c) (rest : Text) :
    form.scanMember found k (':' :: ' ' :: (v.prettyAt level ++ c :: rest))
      = .ok (found ++ [(k, v)], c :: rest) := by
  obtain ⟨field, hfield, hreads⟩ := hmember
  have hcolon : ∀ u, skipGap (':' :: u) = ':' :: u := skipGap_cons (by decide)
  rw [scanMember, hfield, lookup_eq_none hfresh]
  simp only [Option.isSome_none, Bool.false_eq_true, if_false, hcolon, hreads level c rest hc]
  rfl

/-- The members of an object are read one after the other. -/
theorem scanMembers_pretty {gap : Text} (hgap : ∀ c ∈ gap, isGap c = true) {fuel : Nat}
    (hfuel : ms.length < fuel) (hmembers : ∀ m ∈ (k, v) :: ms, form.HasMember m)
    (hnames : (found.map Prod.fst ++ ((k, v) :: ms).map Prod.fst).Nodup) (level outer : Nat)
    (rest : Text) :
    form.scanMembers fuel found (gap ++ (writeText k ++ ':' :: ' ' :: (v.prettyAt level ++
        (prettyMembers level ms ++ (newLine outer ++ '\x7d' :: rest)))))
      = form.close (found ++ (k, v) :: ms) rest := by
  induction ms generalizing k v found gap fuel with
  | nil =>
    obtain ⟨fuel, rfl⟩ : ∃ n, fuel = n + 1 := ⟨fuel - 1, by omega⟩
    have hfresh : k ∉ found.map Prod.fst := fun hmem =>
      (List.nodup_append.1 hnames).2.2 k hmem k (List.mem_cons_self ..) rfl
    have hmember := scanMember_eq (hmembers _ (List.mem_cons_self ..)) hfresh level
      (.inr rfl) (List.replicate (2 * outer) ' ' ++ '\x7d' :: rest)
    have hclose : skipGap ('\n' :: (List.replicate (2 * outer) ' ' ++ '\x7d' :: rest))
        = '\x7d' :: rest := by
      change skipGap (newLine outer ++ '\x7d' :: rest) = _
      rw [skipGap_append (isGap_newLine outer)]
      rfl
    have hline : prettyMembers level [] ++ (newLine outer ++ '\x7d' :: rest)
        = '\n' :: (List.replicate (2 * outer) ' ' ++ '\x7d' :: rest) := by
      rw [prettyMembers]
      rfl
    rw [hline, scanMembers, skipGap_append hgap, skipGap_writeText, writeText_append]
    simp only [scanText_flatMap_writeChar, bind, Except.bind, hmember, hclose]
  | cons m ms ih =>
    obtain ⟨k', v'⟩ := m
    obtain ⟨fuel, rfl⟩ : ∃ n, fuel = n + 1 := ⟨fuel - 1, by omega⟩
    rw [List.length_cons] at hfuel
    have hfresh : k ∉ found.map Prod.fst := fun hmem =>
      (List.nodup_append.1 hnames).2.2 k hmem k (List.mem_cons_self ..) rfl
    have hmore : ((found ++ [(k, v)]).map Prod.fst ++ ((k', v') :: ms).map Prod.fst).Nodup := by
      simpa using hnames
    have hrest := ih (isGap_newLine level) (Nat.lt_of_succ_lt_succ hfuel)
      (fun m hm => hmembers m (List.mem_cons_of_mem _ hm)) hmore
    have hmember := scanMember_eq (hmembers _ (List.mem_cons_self ..)) hfresh level
      (.inl rfl) (newLine level ++ (writeText k' ++ ':' :: ' ' :: (v'.prettyAt level ++
        (prettyMembers level ms ++ (newLine outer ++ '\x7d' :: rest)))))
    have hcomma : ∀ u, skipGap (',' :: u) = ',' :: u := skipGap_cons (by decide)
    have hline : prettyMembers level ((k', v') :: ms) ++ (newLine outer ++ '\x7d' :: rest)
        = ',' :: (newLine level ++ (writeText k' ++ ':' :: ' ' :: (v'.prettyAt level ++
          (prettyMembers level ms ++ (newLine outer ++ '\x7d' :: rest))))) := by
      simp [prettyMembers]
    rw [hline, scanMembers, skipGap_append hgap, skipGap_writeText, writeText_append]
    simp only [scanText_flatMap_writeChar, bind, Except.bind, hmember, hcomma]
    rw [hrest, List.append_assoc]
    rfl

theorem length_le_prettyMembers (level : Nat) (ms : Values) :
    ms.length ≤ (prettyMembers level ms).length := by
  induction ms with
  | nil => exact Nat.zero_le _
  | cons m ms ih =>
    simp only [prettyMembers, List.cons_append, List.length_cons, List.length_append]
    omega

/-- An object that starts with a name is read member by member. -/
theorem scan_members {t u : Text} (h : skipGap t = '"' :: u) :
    form.scan ('\x7b' :: t) = form.scanMembers (('"' :: u).length + 1) [] ('"' :: u) := by
  have hbrace : skipGap ('\x7b' :: t) = '\x7b' :: t := skipGap_cons (by decide) t
  rw [scan, hbrace]
  simp only [h]
  rfl

/-- An object whose members are fields, each once and with none missing, is read from its indented
form. -/
theorem read_pretty (hne : ms ≠ []) (hmembers : ∀ m ∈ ms, form.HasMember m)
    (hnames : (ms.map Prod.fst).Nodup) (hmissing : form.missing? ms = none) :
    form.read ((Json.object ms).pretty ++ [Text.lf]) = .ok ms := by
  obtain ⟨⟨k, v⟩, more, rfl⟩ := List.exists_cons_of_ne_nil hne
  have hwritten : (Json.object ((k, v) :: more)).pretty ++ [Text.lf]
      = '\x7b' :: (newLine 1 ++ (writeText k ++ ':' :: ' ' :: (v.prettyAt 1 ++
        (prettyMembers 1 more ++ (newLine 0 ++ ['\x7d', '\n']))))) := by
    simp [pretty, prettyAt, Text.lf]
  have hfirst : skipGap (newLine 1 ++ (writeText k ++ ':' :: ' ' :: (v.prettyAt 1 ++
        (prettyMembers 1 more ++ (newLine 0 ++ ['\x7d', '\n'])))))
      = '"' :: (k.flatMap writeChar ++ '"' :: ':' :: ' ' :: (v.prettyAt 1 ++
        (prettyMembers 1 more ++ (newLine 0 ++ ['\x7d', '\n'])))) := by
    rw [skipGap_append (isGap_newLine 1), skipGap_writeText, writeText_append]
  have hfuel := length_le_prettyMembers 1 more
  have hall : (([] : Values).map Prod.fst ++ ((k, v) :: more).map Prod.fst).Nodup := hnames
  have hscan : form.scan ((Json.object ((k, v) :: more)).pretty ++ [Text.lf])
      = .ok ((k, v) :: more, ['\n']) := by
    rw [hwritten, scan_members hfirst, ← writeText_append]
    refine (scanMembers_pretty (List.forall_mem_nil _) ?_ hmembers hall 1 0 ['\n']).trans ?_
    · simp only [List.length_append, List.length_cons]
      omega
    · rw [close, List.nil_append, hmissing]
  have hend : skipGap ['\n'] = [] := rfl
  rw [read, hscan]
  simp only [bind, Except.bind, hend]
  rfl

end RecordForm

end Mend
