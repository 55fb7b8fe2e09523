import Mend.Lookup
import Mend.Proofs.Toml.Values

/-!
# Documents read back

A part of a document takes the draft of the reader further, whatever stands below it
(`Toml.Drafts`): an entry adds a value to the table that is open (`Toml.drafts_entry`), and a header
opens another one (`Toml.drafts_header`). So entries with names of their own, and a table of such
entries below them, read as what was written (`Toml.read?_document`).
-/

namespace Mend

namespace Toml

/-! ## Keys -/

/-- A name that stands in a document without quotes. -/
structure IsBare (name : String) : Prop where
  ne_nil : name.toList ≠ []
  all_keyChar : name.toList.all isKeyChar = true

instance (name : String) : Decidable (IsBare name) :=
  decidable_of_iff (name.toList ≠ [] ∧ name.toList.all isKeyChar = true)
    ⟨fun ⟨hne, hall⟩ => ⟨hne, hall⟩, fun h => ⟨h.ne_nil, h.all_keyChar⟩⟩

section Bare

variable {name : String} (hname : IsBare name)

include hname

theorem IsBare.of_mem {c : Char} (hc : c ∈ name.toList) : isKeyChar c = true :=
  List.all_eq_true.1 hname.all_keyChar c hc

/-- The first character of a name stands for nothing else. -/
theorem IsBare.exists_cons : ∃ c u, name.toList = c :: u ∧ isKeyChar c = true := by
  obtain ⟨c, u, heq⟩ := List.exists_cons_of_ne_nil hname.ne_nil
  exact ⟨c, u, heq, hname.of_mem (heq ▸ List.mem_cons_self ..)⟩

theorem IsBare.readName {c : Char} (hc : isKeyChar c = false) (rest : Text) :
    readName (name.toList ++ c :: rest) = some (name.toList, c :: rest) := by
  have htake : (name.toList ++ c :: rest).takeWhile isKeyChar = name.toList := by
    rw [List.takeWhile_append_of_pos fun _ => hname.of_mem]
    simp [hc]
  have hdrop : (name.toList ++ c :: rest).dropWhile isKeyChar = c :: rest := by
    rw [List.dropWhile_append_of_pos fun _ => hname.of_mem]
    simp [hc]
  obtain ⟨d, u, heq, hd⟩ := hname.exists_cons
  have hfirst : ∀ q : Char, isKeyChar q = false → ∀ v, name.toList ++ c :: rest ≠ q :: v := by
    intro q hq v hv
    rw [heq, List.cons_append] at hv
    rw [(List.cons.inj hv).1, hq] at hd
    cases hd
  rw [Toml.readName, htake, hdrop, List.isEmpty_eq_false_iff.2 hname.ne_nil]
  · rfl
  · exact hfirst '"' (by decide)
  · exact hfirst '\'' (by decide)

/-- A name, and what stands after it and its blanks. -/
theorem IsBare.readKey {c : Char} (hc : isKeyChar c = false) {rest : Text}
    (hpoint : (skipSpace (c :: rest)).head? ≠ some '.') (fuel : Nat) :
    readKey (fuel + 1) (name.toList ++ c :: rest)
      = some ((name.toList, []), skipSpace (c :: rest)) := by
  rw [Toml.readKey, hname.readName hc]
  cases hskip : skipSpace (c :: rest) with
  | nil => simp [hskip]
  | cons d u =>
    rw [hskip] at hpoint
    have hd : d ≠ '.' := fun heq => hpoint (congrArg some heq)
    simp [hskip, hd]

end Bare

/-! ## Lines -/

section Lines

variable {name : String} (hname : IsBare name)

include hname

/-- A line with a key and a value. -/
theorem readExpression_entry {text : Text} {v : Toml} (htext : Reads text v) (d : Draft)
    (rest : Text) : readExpression d (writeEntry name text ++ rest)
      = (d.put v name.toList []).map (·, '\n' :: rest) := by
  have hline : writeEntry name text ++ rest
      = name.toList ++ ' ' :: ('=' :: ' ' :: (text ++ '\n' :: rest)) := by
    simp [writeEntry, Text.lf]
  obtain ⟨c, u, hstart, hspace⟩ : ∃ c u, text = c :: u ∧ isSpace c = false := by
    obtain ⟨c, u, heq⟩ := List.exists_cons_of_ne_nil htext.ne_nil
    exact ⟨c, u, heq, htext.starts c (heq ▸ rfl)⟩
  have hskip : skipSpace (' ' :: (text ++ '\n' :: rest)) = text ++ '\n' :: rest := by
    rw [skipSpace, List.dropWhile_cons_of_pos rfl, hstart, List.cons_append,
      List.dropWhile_cons_of_neg (by simp [hspace])]
  have hpoint : (skipSpace (' ' :: ('=' :: ' ' :: (text ++ '\n' :: rest)))).head? ≠ some '.' := by
    simp [skipSpace, isSpace]
  have hkey := hname.readKey (by decide) hpoint (writeEntry name text ++ rest).length
  have hequals : skipSpace (' ' :: '=' :: ' ' :: (text ++ '\n' :: rest))
      = '=' :: ' ' :: (text ++ '\n' :: rest) := rfl
  have hvalue := htext.value (2 * (writeEntry name text ++ rest).length + 2) rest (by
    rw [hline]
    simp only [List.length_append, List.length_cons]
    omega)
  obtain ⟨d', w, hfirst, hd'⟩ := hname.exists_cons
  have hbracket : ∀ w, writeEntry name text ++ rest ≠ '[' :: w := by
    intro w hw
    rw [hline, hfirst, List.cons_append] at hw
    rw [(List.cons.inj hw).1] at hd'
    cases hd'
  rw [hequals, ← hline] at hkey
  rw [readExpression]
  · rw [hkey]
    simp only [Option.bind_eq_bind, Option.bind_some, hskip, hvalue, Option.map_eq_bind]
    rfl
  · exact fun w => hbracket _
  · exact hbracket

/-- The header of a table. -/
theorem readExpression_header (d : Draft) (rest : Text) :
    readExpression d ('[' :: (name.toList ++ ']' :: rest))
      = (d.enter TomlEntries.openTable name.toList []).map (·, rest) := by
  obtain ⟨c, u, hfirst, hc⟩ := hname.exists_cons
  have hskip : skipSpace (name.toList ++ ']' :: rest) = name.toList ++ ']' :: rest := by
    rw [skipSpace, hfirst, List.cons_append, List.dropWhile_cons_of_neg]
    intro hspace
    have hcases : c = ' ' ∨ c = '\t' := by simpa [isSpace] using hspace
    rcases hcases with rfl | rfl <;> exact absurd hc (by decide)
  have hpoint : (skipSpace (']' :: rest)).head? ≠ some '.' := by simp [skipSpace, isSpace]
  have hkey := hname.readKey (by decide) hpoint ('[' :: (name.toList ++ ']' :: rest)).length
  have hbracket : skipSpace (']' :: rest) = ']' :: rest := rfl
  rw [readExpression]
  · rw [hskip, hkey, hbracket, Option.map_eq_bind]
    rfl
  · rintro w hw
    rw [hfirst, List.cons_append] at hw
    rw [(List.cons.inj hw).1] at hc
    cases hc

end Lines

/-! ## Drafts -/

/-- A part of a document that takes one draft to another, whatever stands below it. -/
def Drafts (d : Draft) (text : Text) (d' : Draft) : Prop :=
  ∃ steps ≤ text.length, ∀ fuel rest,
    readExpressions (fuel + steps) d (text ++ rest) = readExpressions fuel d' rest

theorem drafts_nil (d : Draft) : Drafts d [] d := ⟨0, Nat.le_refl 0, fun _ _ => rfl⟩

theorem Drafts.append {d d' d'' : Draft} {text more : Text} (h : Drafts d text d')
    (h' : Drafts d' more d'') : Drafts d (text ++ more) d'' := by
  obtain ⟨m, hm, hread⟩ := h
  obtain ⟨n, hn, hread'⟩ := h'
  refine ⟨n + m, ?_, fun fuel rest => ?_⟩
  · rw [List.length_append]
    omega
  · rw [← Nat.add_assoc, List.append_assoc, hread, hread']

/-- An entry puts a value. -/
theorem drafts_entry {name : String} (hname : IsBare name) {text : Text} {v : Toml}
    (htext : Reads text v) {d d' : Draft} (hput : d.put v name.toList [] = some d') :
    Drafts d (writeEntry name text) d' := by
  obtain ⟨c, u, hfirst, hc⟩ := hname.exists_cons
  have hlength : 1 ≤ (writeEntry name text).length := by
    simp only [writeEntry, List.length_append, List.length_singleton]
    omega
  refine ⟨1, hlength, fun fuel rest => ?_⟩
  obtain ⟨w, hw⟩ : ∃ w, writeEntry name text ++ rest = c :: w :=
    ⟨_, by rw [writeEntry, hfirst]; rfl⟩
  -- a name is neither blank nor a comment
  have hskip : skipLines false (c :: w) = some (c :: w) := by
    have hother : ∀ q : Char, isKeyChar q = false → c ≠ q := by
      rintro q hq rfl
      rw [hq] at hc
      cases hc
    have hlf := hother '\n' (by decide)
    have hcr := hother '\r' (by decide)
    have hspace := hother ' ' (by decide)
    have htab := hother '\t' (by decide)
    have hhash := hother '#' (by decide)
    simp [skipLines, isSpace, hlf, hcr, hspace, htab, hhash]
  have hread := readExpression_entry hname htext d rest
  rw [hput, Option.map_some] at hread
  rw [hw] at hread ⊢
  rw [readExpressions, hskip]
  simp only [Option.bind_eq_bind, hread, Option.bind_some]
  rfl

/-- A header opens a table. -/
theorem drafts_header {name : String} (hname : IsBare name) {d d' : Draft}
    (henter : d.enter TomlEntries.openTable name.toList [] = some d') :
    Drafts d (writeHeader name) d' := by
  refine ⟨1, by simp [writeHeader], fun fuel rest => ?_⟩
  have hline : writeHeader name ++ rest = '\n' :: '[' :: (name.toList ++ ']' :: '\n' :: rest) := by
    simp [writeHeader]
  have hskip : skipLines false ('\n' :: '[' :: (name.toList ++ ']' :: '\n' :: rest))
      = some ('[' :: (name.toList ++ ']' :: '\n' :: rest)) := rfl
  have hread := readExpression_header hname d ('\n' :: rest)
  rw [henter, Option.map_some] at hread
  rw [hline, readExpressions, hskip]
  simp only [Option.bind_eq_bind, hread, Option.bind_some]
  rfl

/-- A document that starts with an entry and ends with an empty line. -/
theorem read?_of_drafts {text : Text} {d : Draft} (h : Drafts {} text d)
    (hmark : text.head? ≠ some byteOrderMark) (hne : text ≠ []) :
    read? (text ++ ['\n']) = some (.table (TomlNode.entryValues d.entries)) := by
  obtain ⟨steps, hsteps, hread⟩ := h
  have hdrop : Text.dropPrefix [byteOrderMark] (text ++ ['\n']) = text ++ ['\n'] := by
    obtain ⟨c, u, rfl⟩ := List.exists_cons_of_ne_nil hne
    have hc : byteOrderMark ≠ c := fun heq => hmark (congrArg some heq.symm)
    simp [Text.dropPrefix, Text.dropPrefix?, hc]
  have hfuel : (text ++ ['\n']).length + 1 = (text.length - steps + 1) + 1 + steps := by
    rw [List.length_append, List.length_singleton]
    omega
  rw [read?, hdrop, hfuel, hread]
  rfl

/-! ## Tables of entries -/

/-- A line of a document: a name, the text of a value and the value that it reads as. -/
structure Entry where
  name : String
  text : Text
  value : Toml

namespace Entry

/-- The lines of entries. -/
def write (es : List Entry) : Text := es.flatMap fun e => writeEntry e.name e.text

/-- The values of entries by name. -/
def fields (es : List Entry) : List (Text × Toml) := es.map fun e => (e.name.toList, e.value)

/-- What is collected for entries. -/
def leaves (es : List Entry) : TomlEntries := es.map fun e => (e.name.toList, .leaf e.value)

/-- An entry that reads as its value. -/
structure IsSound (e : Entry) : Prop where
  bare : IsBare e.name
  reads : Reads e.text e.value

end Entry

theorem entryValues_append (es more : TomlEntries) :
    TomlNode.entryValues (es ++ more) = TomlNode.entryValues es ++ TomlNode.entryValues more := by
  induction es with
  | nil => rfl
  | cons e es ih =>
    rw [List.cons_append, TomlNode.entryValues, TomlNode.entryValues, ih, List.cons_append]

theorem entryValues_leaves (es : List Entry) :
    TomlNode.entryValues (Entry.leaves es) = Entry.fields es := by
  induction es with
  | nil => rfl
  | cons e es ih =>
    have hcons : TomlNode.entryValues (Entry.leaves (e :: es))
        = (e.name.toList, e.value) :: TomlNode.entryValues (Entry.leaves es) := rfl
    rw [hcons, ih]
    rfl

section Concat

variable {α : Type} {es : List (Text × α)} {name : Text} {node : α}

/-- A name that is new stands at the end. -/
theorem lookup_concat (h : name ∉ es.map Prod.fst) :
    (es ++ [(name, node)]).lookup name = some node := by
  rw [List.lookup_append, lookup_eq_none h, Option.none_or]
  simp

end Concat

theorem set_concat {es : TomlEntries} {name : Text} {node other : TomlNode}
    (h : name ∉ es.map Prod.fst) :
    TomlEntries.set name other (es ++ [(name, node)]) = es ++ [(name, other)] := by
  induction es with
  | nil => simp [TomlEntries.set]
  | cons e es ih =>
    obtain ⟨hne, hes⟩ : name ≠ e.1 ∧ name ∉ es.map Prod.fst := by simpa using h
    rw [List.cons_append, TomlEntries.set, if_neg (Ne.symm hne), ih hes, List.cons_append]

/-- Entries of the root table. -/
theorem drafts_root {es : List Entry} (hsound : ∀ e ∈ es, e.IsSound) {root : TomlEntries}
    (hnames : (root.map Prod.fst ++ es.map fun e => e.name.toList).Nodup) :
    Drafts ⟨root, []⟩ (Entry.write es) ⟨root ++ Entry.leaves es, []⟩ := by
  induction es generalizing root with
  | nil =>
    rw [Entry.leaves, List.map_nil, List.append_nil]
    exact drafts_nil _
  | cons e es ih =>
    rw [List.forall_mem_cons] at hsound
    have hnew : root.lookup e.name.toList = none := by
      refine lookup_eq_none fun hmem => ?_
      exact (List.nodup_append.1 hnames).2.2 _ hmem _ (List.mem_cons_self ..) rfl
    have hput : Draft.put ⟨root, []⟩ e.value e.name.toList []
        = some ⟨root ++ [(e.name.toList, .leaf e.value)], []⟩ := by
      simp [Draft.put, TomlEntries.within, TomlEntries.putKey, TomlEntries.add?, hnew]
    have hrest : Drafts ⟨root ++ [(e.name.toList, .leaf e.value)], []⟩ (Entry.write es)
        ⟨root ++ [(e.name.toList, .leaf e.value)] ++ Entry.leaves es, []⟩ :=
      ih hsound.2 (by simpa using hnames)
    rw [List.append_assoc, List.singleton_append] at hrest
    exact (drafts_entry hsound.1.bare hsound.1.reads hput).append hrest

/-- Entries of the table that was opened last. -/
theorem drafts_table {es : List Entry} (hsound : ∀ e ∈ es, e.IsSound) {root inner : TomlEntries}
    {header : Text} (hheader : header ∉ root.map Prod.fst)
    (hnames : (inner.map Prod.fst ++ es.map fun e => e.name.toList).Nodup) :
    Drafts ⟨root ++ [(header, .table .header inner)], [header]⟩ (Entry.write es)
      ⟨root ++ [(header, .table .header (inner ++ Entry.leaves es))], [header]⟩ := by
  induction es generalizing inner with
  | nil =>
    rw [Entry.leaves, List.map_nil, List.append_nil]
    exact drafts_nil _
  | cons e es ih =>
    rw [List.forall_mem_cons] at hsound
    have hnew : inner.lookup e.name.toList = none := by
      refine lookup_eq_none fun hmem => ?_
      exact (List.nodup_append.1 hnames).2.2 _ hmem _ (List.mem_cons_self ..) rfl
    have hput : Draft.put ⟨root ++ [(header, .table .header inner)], [header]⟩ e.value
        e.name.toList []
        = some ⟨root ++ [(header, .table .header (inner ++ [(e.name.toList, .leaf e.value)]))],
          [header]⟩ := by
      simp [Draft.put, TomlEntries.within, TomlEntries.putKey, TomlEntries.add?, hnew,
        lookup_concat hheader, set_concat hheader]
    have hrest : Drafts
        ⟨root ++ [(header, .table .header (inner ++ [(e.name.toList, .leaf e.value)]))], [header]⟩
        (Entry.write es)
        ⟨root ++ [(header, .table .header
          (inner ++ [(e.name.toList, .leaf e.value)] ++ Entry.leaves es))], [header]⟩ :=
      ih hsound.2 (by simpa using hnames)
    rw [List.append_assoc, List.singleton_append] at hrest
    exact (drafts_entry hsound.1.bare hsound.1.reads hput).append hrest

/-- A document with entries and a table of entries below them. -/
theorem read?_document {es inner : List Entry} {header : String} (hes : es ≠ [])
    (hsound : ∀ e ∈ es, e.IsSound) (hinner : ∀ e ∈ inner, e.IsSound) (hheader : IsBare header)
    (hnames : ((es.map fun e => e.name.toList) ++ [header.toList]).Nodup)
    (hinnerNames : (inner.map fun e => e.name.toList).Nodup) :
    read? (Entry.write es ++ writeHeader header ++ Entry.write inner ++ ['\n'])
      = some (.table (Entry.fields es ++ [(header.toList, .table (Entry.fields inner))])) := by
  have hnew : header.toList ∉ (Entry.leaves es).map Prod.fst := by
    have hmap : (Entry.leaves es).map Prod.fst = es.map fun e => e.name.toList := by
      simp [Entry.leaves]
    rw [hmap]
    exact fun hmem => (List.nodup_append.1 hnames).2.2 _ hmem _ (List.mem_singleton_self _) rfl
  have hroot : Drafts {} (Entry.write es) ⟨Entry.leaves es, []⟩ :=
    drafts_root hsound (List.nodup_append.1 hnames).1
  have henter : Draft.enter ⟨Entry.leaves es, []⟩ TomlEntries.openTable header.toList []
      = some ⟨Entry.leaves es ++ [(header.toList, .table .header [])], [header.toList]⟩ := by
    simp [Draft.enter, TomlEntries.within, TomlEntries.openTable, lookup_eq_none hnew]
  have htable : Drafts ⟨Entry.leaves es ++ [(header.toList, .table .header [])], [header.toList]⟩
      (Entry.write inner)
      ⟨Entry.leaves es ++ [(header.toList, .table .header ([] ++ Entry.leaves inner))],
        [header.toList]⟩ :=
    drafts_table hinner hnew hinnerNames
  have hdrafts := (hroot.append (drafts_header hheader henter)).append htable
  -- the first entry is no byte order mark
  obtain ⟨e, es', rfl⟩ := List.exists_cons_of_ne_nil hes
  obtain ⟨c, u, hfirst, hc⟩ := (hsound e (List.mem_cons_self ..)).bare.exists_cons
  obtain ⟨w, hw⟩ : ∃ w, Entry.write (e :: es') ++ writeHeader header ++ Entry.write inner = c :: w :=
    ⟨_, by rw [Entry.write, List.flatMap_cons, writeEntry, hfirst]; rfl⟩
  rw [read?_of_drafts hdrafts]
  · rw [List.nil_append, entryValues_append, entryValues_leaves]
    simp only [TomlNode.entryValues, TomlNode.value, entryValues_leaves]
  · rw [hw]
    rintro heq
    obtain rfl := Option.some.inj heq
    exact absurd hc (by decide)
  · rw [hw]
    exact List.cons_ne_nil _ _

end Toml

end Mend
