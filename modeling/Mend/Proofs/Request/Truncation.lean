import Mathlib.Data.Nat.Find
import Mend.Proofs.Request.Members
import Mend.Proofs.Request.RoundTrip

/-!
# Requests that are cut off

A reply that is cut off inside of its requests still asks for those whose paths are whole
(`Request.resolve_take_compact`). What is left is no JSON, so it is read member by member: each whole
path has its kind in front of it, and what follows the last whole path holds no further path, whatever
it is cut off in. Before the first path nothing is read: a line of such a text is a fragment of JSON,
not a path.
-/

namespace Mend

/-- A character that needs no escape is written as it is. -/
theorem Json.writeChar_eq_singleton {c : Char} (hquote : c ≠ '"') (hslash : c ≠ '\\')
    (hlow : 0x20 ≤ c.toNat) : Json.writeChar c = [c] := by
  have hcontrol : ∀ d : Char, d.toNat < 0x20 → c ≠ d := by
    rintro d hd rfl
    omega
  rw [Json.writeChar, if_neg hquote, if_neg hslash, if_neg (hcontrol _ (by decide)),
    if_neg (hcontrol _ (by decide)), if_neg (hcontrol _ (by decide)), if_neg (by omega),
    if_neg (by omega), if_neg (by omega)]

namespace Request

open Text (matchAll joinWith)

/-! ## The written form -/

/-- A path that is written between quotes as it is, and read as it is. -/
structure IsLiteralPath (path : Text) : Prop where
  ne_nil : path ≠ []
  trim_eq : path.trim = path
  plain : path.plainQuotes = path
  quote_notMem : '"' ∉ path
  slash_notMem : '\\' ∉ path
  le_toNat : ∀ c ∈ path, 0x20 ≤ c.toNat

instance (path : Text) : Decidable (IsLiteralPath path) :=
  decidable_of_iff
    (path ≠ [] ∧ path.trim = path ∧ path.plainQuotes = path ∧ '"' ∉ path ∧ '\\' ∉ path ∧
      path.all (fun c => decide (0x20 ≤ c.toNat)) = true)
    ⟨fun ⟨hne, htrim, hplain, hquote, hslash, hlow⟩ =>
        ⟨hne, htrim, hplain, hquote, hslash, Text.forall_mem_of_all hlow⟩,
      fun h => ⟨h.ne_nil, h.trim_eq, h.plain, h.quote_notMem, h.slash_notMem,
        List.all_eq_true.2 fun c hc => decide_eq_true (h.le_toNat c hc)⟩⟩

/-- The JSON form of requests up to the closing quote of the last path. -/
def upToLastPath (rs : List Request) : Text := (listJson rs).compact.dropLast.dropLast

/-- What is written for a request before its path: its kind, and the name and the opening quote of the
path. -/
def opening (r : Request) : Text :=
  '\x7b' :: '"' :: ("type".toList ++ '"' :: ':' :: '"' :: (r.kind.wireName ++ '"' :: ',' :: '"' ::
    ("path".toList ++ ['"', ':', '"'])))

/-- What is written for a request up to the closing quote of its path. -/
def piece (r : Request) : Text := opening r ++ (r.path ++ ['"'])

/-- What is written between the path of a request and the next request. -/
def between : Text := ['\x7d', ',']

/-- What needs no escape is written as it is. -/
theorem writeText_eq {t : Text} (hquote : '"' ∉ t) (hslash : '\\' ∉ t)
    (hlow : ∀ c ∈ t, 0x20 ≤ c.toNat) : Json.writeText t = '"' :: (t ++ ['"']) := by
  have hplain : t.flatMap Json.writeChar = t := by
    induction t with
    | nil => rfl
    | cons c t ih =>
      rw [List.mem_cons, not_or] at hquote hslash
      rw [List.forall_mem_cons] at hlow
      have hc : Json.writeChar c = [c] :=
        Json.writeChar_eq_singleton (Ne.symm hquote.1) (Ne.symm hslash.1) hlow.1
      rw [List.flatMap_cons, hc, ih hquote.2 hslash.2 hlow.2]
      rfl
  rw [Json.writeText, hplain]
  rfl

theorem writeText_wireName (k : RequestKind) :
    Json.writeText k.wireName = '"' :: (k.wireName ++ ['"']) := by
  cases k with
  | file => exact writeText_eq (by decide) (by decide) (Text.forall_mem_of_all (by decide))
  | listing => exact writeText_eq (by decide) (by decide) (Text.forall_mem_of_all (by decide))

theorem compact_toJson {r : Request} (h : IsLiteralPath r.path) :
    r.toJson.compact = piece r ++ ['\x7d'] := by
  have hpath := writeText_eq h.quote_notMem h.slash_notMem h.le_toNat
  have htype := @writeText_eq "type".toList (by decide) (by decide)
    (Text.forall_mem_of_all (by decide))
  have hname := @writeText_eq "path".toList (by decide) (by decide)
    (Text.forall_mem_of_all (by decide))
  rw [toJson, members, Json.compact, Json.compactMembers, Json.compactMembers, Json.compact,
    Json.compact, htype, hname, hpath, writeText_wireName, piece, opening]
  simp only [List.append_assoc, List.cons_append, List.nil_append, List.append_nil]

theorem compact_listJson {r : Request} {rs : List Request} (h : ∀ s ∈ r :: rs, IsLiteralPath s.path) :
    (listJson (r :: rs)).compact
      = '[' :: (joinWith between ((r :: rs).map piece) ++ ['\x7d', ']']) := by
  have hitems : piece r ++ ['\x7d'] ++ Json.compactItems (rs.map toJson)
      = joinWith between ((r :: rs).map piece) ++ ['\x7d'] := by
    induction rs generalizing r with
    | nil => simp [Json.compactItems, joinWith]
    | cons s rs ih =>
      rw [List.forall_mem_cons] at h
      have hs := compact_toJson (h.2 s (List.mem_cons_self ..))
      have hrest := ih h.2
      rw [List.map_cons] at hrest
      rw [List.map_cons, List.map_cons, List.map_cons, Text.joinWith_cons_cons, Json.compactItems, hs]
      simp only [between, List.append_assoc, List.cons_append, List.nil_append] at hrest ⊢
      rw [hrest]
  rw [listJson, List.map_cons, Json.compact, compact_toJson (h r (List.mem_cons_self ..)),
    List.cons_append, List.append_assoc, List.cons_append, ← List.append_assoc, hitems]
  simp

/-! ## The members of the written form -/

/-- What stands before a path holds no path. -/
theorem matchAll_path_opening (r : Request) (t : Text) : matchAll (member pathNames) (opening r ++ t)
    = matchAll (member pathNames) ('"' :: ("path".toList ++ '"' :: ':' :: '"' :: t)) := by
  have hwords := areWords_pathNames
  have htype : "type".toList ∉ pathNames := by decide
  have hkind : '"' ∉ r.kind.wireName ∧ r.kind.wireName ∉ pathNames := by
    cases r.kind with
    | file => decide
    | listing => decide
  simp only [opening, List.cons_append, List.append_assoc, List.nil_append]
  rw [matchAll_member_cons hwords (by decide),
    matchAll_member_word hwords (by decide) (by simp) fun hmem => absurd hmem htype,
    matchAll_member_cons hwords (by decide),
    matchAll_member_word hwords hkind.1 (by simp) fun hmem => absurd hmem hkind.2,
    matchAll_member_cons hwords (by decide)]

/-- The path of a request is found behind its opening. -/
theorem matchAll_path_piece {r : Request} (h : IsLiteralPath r.path) (t : Text) :
    matchAll (member pathNames) (piece r ++ t) = r.path :: matchAll (member pathNames) t := by
  have hspells : SpellsMember pathNames
      ('"' :: ("path".toList ++ '"' :: ([] ++ ':' :: ([] ++ '"' :: (r.path ++ ['"']))))) r.path :=
    .mk (by decide) (List.forall_mem_nil _) (List.forall_mem_nil _) h.ne_nil h.quote_notMem
  have hfound := matchAll_member areWords_pathNames hspells t
  rw [piece, List.append_assoc, matchAll_path_opening]
  simpa only [List.cons_append, List.append_assoc, List.nil_append] using hfound

/-- The kind of a request is found, and nothing else up to the closing quote of its path. -/
theorem matchAll_kind_piece {r : Request} (h : IsLiteralPath r.path) {t : Text}
    (ht : ∀ c ∈ t.head?, c = '\x7d') : matchAll (member kindNames) (piece r ++ t)
      = r.kind.wireName :: matchAll (member kindNames) t := by
  have hwords := areWords_kindNames
  have hkind : r.kind.wireName ≠ [] ∧ '"' ∉ r.kind.wireName := by
    cases r.kind with
    | file => decide
    | listing => decide
  have hpath : "path".toList ∉ kindNames := by decide
  have hspells : SpellsMember kindNames
      ('"' :: ("type".toList ++ '"' :: ([] ++ ':' :: ([] ++ '"' :: (r.kind.wireName ++ ['"'])))))
      r.kind.wireName :=
    .mk (by decide) (List.forall_mem_nil _) (List.forall_mem_nil _) hkind.1 hkind.2
  have hfound := matchAll_member hwords hspells
    (',' :: '"' :: ("path".toList ++ '"' :: ':' :: '"' :: (r.path ++ '"' :: t)))
  -- a path may be spelled like the name of a kind, but no colon follows it
  have hend : ∀ c ∈ t.head?, c.isAlpha = false := by
    intro c hc
    rw [ht c hc]
    decide
  have hcolon : ∀ c ∈ t.head?, c ≠ ':' ∧ Text.isBlank c = false := by
    intro c hc
    rw [ht c hc]
    decide
  rw [matchAll_member_cons hwords (by decide),
    matchAll_member_word hwords (by decide) (by simp) fun hmem => absurd hmem hpath,
    matchAll_member_cons hwords (by decide),
    matchAll_member_word hwords h.quote_notMem hend fun _ => hcolon] at hfound
  simp only [piece, opening, List.cons_append, List.append_assoc, List.nil_append] at hfound ⊢
  rw [matchAll_member_cons hwords (by decide), hfound]

/-- What is found in each request is found in all of them, and then what is behind. -/
theorem matchAll_pieces {names : List Text} (h : AreWords names) {f : Request → Text} {r : Request}
    {rs : List Request} (hpiece : ∀ s ∈ r :: rs, ∀ u : Text, (∀ c ∈ u.head?, c = '\x7d') →
      matchAll (member names) (piece s ++ u) = f s :: matchAll (member names) u)
    {t : Text} (ht : ∀ c ∈ t.head?, c = '\x7d') :
    matchAll (member names) (joinWith between ((r :: rs).map piece) ++ t)
      = (r :: rs).map f ++ matchAll (member names) t := by
  induction rs generalizing r with
  | nil =>
    have hfound := hpiece r (List.mem_cons_self ..) t ht
    simpa [joinWith] using hfound
  | cons s rs ih =>
    rw [List.forall_mem_cons] at hpiece
    -- no member goes from one request into the next
    have hskip := matchAll_member_skip h (by decide : '"' ∉ between)
      (joinWith between ((s :: rs).map piece) ++ t)
    rw [List.map_cons, List.map_cons, Text.joinWith_cons_cons, List.append_assoc, List.append_assoc,
      hpiece.1 _ (by simp [between]), ← List.map_cons, hskip, ih hpiece.2]
    rfl

/-- What is cut off before the closing quote of a path holds no path. -/
theorem matchAll_path_cut {r : Request} (h : IsLiteralPath r.path) {front t : Text}
    (hfront : '"' ∉ front) (ht : t <+: front ++ (opening r ++ r.path)) :
    matchAll (member pathNames) t = [] := by
  have hwords := areWords_pathNames
  obtain ⟨u, hu⟩ := ht
  -- more text has these matches too, so it is enough that all up to the closing quote has none
  refine Text.matchAll_eq_nil_of_append (looksAhead_member pathNames)
    (fun _ _ => member_eq_none_of_append hwords) (u := u) ?_
  have hcount : r.path.count '"' = 0 := List.count_eq_zero.2 h.quote_notMem
  rw [hu, matchAll_member_skip hwords hfront, matchAll_path_opening]
  -- that has two quotes around the name, and the one before the path
  refine matchAll_member_of_count hwords ?_
  simp [hcount]

/-! ## The stages -/

/-- Each path has the kind of its number, and kinds without a path are left out. -/
theorem pairUp_append {rs : List Request} (h : ∀ r ∈ rs, r.path.trim = r.path)
    (kinds : List (Option RequestKind)) :
    pairUp (rs.map path) (rs.map (fun r => some r.kind) ++ kinds) = rs := by
  induction rs with
  | nil => rfl
  | cons r rs ih =>
    rw [List.forall_mem_cons] at h
    rw [List.map_cons, List.map_cons, List.cons_append, pairUp, List.tail_cons, ih h.2, h.1]
    rfl

/-- A path member has its name. -/
theorem hasPathName_of_matchAll {t : Text} (h : matchAll (member pathNames) t ≠ []) :
    hasPathName t = true := by
  rw [hasPathName, List.any_eq_true]
  induction t with
  | nil => exact absurd rfl h
  | cons c t ih =>
    cases hread : member pathNames none (c :: t) with
    | none =>
      rw [Text.matchAll_cons (looksAhead_member pathNames) hread] at h
      obtain ⟨name, hname, hfound⟩ := ih h
      rw [Text.hasInfix_iff] at hfound
      exact ⟨name, hname, Text.hasInfix_iff.2 (List.infix_cons hfound)⟩
    | some found =>
      obtain ⟨w, hw, hspells⟩ := (member_eq_some_iff areWords_pathNames none).1 hread
      obtain ⟨hname, -, -, -, -⟩ := hspells
      exact ⟨_, hname, Text.hasInfix_iff.2 ⟨[], _, by simpa using hw.symm⟩⟩

/-- Requests are read from their members when what follows the last path holds no further one. -/
theorem ofMembers?_pieces {r : Request} {rs : List Request} (h : ∀ s ∈ r :: rs, IsLiteralPath s.path)
    {t : Text} (hhead : ∀ c ∈ t.head?, c = '\x7d') (ht : matchAll (member pathNames) t = []) :
    ofMembers? ('[' :: (joinWith between ((r :: rs).map piece) ++ t)) = some (r :: rs) ∧
      hasPathName ('[' :: (joinWith between ((r :: rs).map piece) ++ t)) = true := by
  have hbracket : '[' ≠ '"' := by decide
  have hpaths : matchAll (member pathNames) ('[' :: (joinWith between ((r :: rs).map piece) ++ t))
      = (r :: rs).map path := by
    have hpiece : ∀ s ∈ r :: rs, ∀ u : Text, (∀ c ∈ u.head?, c = '\x7d') → matchAll
        (member pathNames) (piece s ++ u) = s.path :: matchAll (member pathNames) u :=
      fun s hs u _ => matchAll_path_piece (h s hs) u
    rw [matchAll_member_cons areWords_pathNames hbracket, matchAll_pieces areWords_pathNames hpiece
      hhead, ht, List.append_nil]
  have hkinds : (matchAll (member kindNames)
        ('[' :: (joinWith between ((r :: rs).map piece) ++ t))).map RequestKind.ofWire?
      = (r :: rs).map (fun r => some r.kind)
        ++ (matchAll (member kindNames) t).map RequestKind.ofWire? := by
    have hpiece : ∀ s ∈ r :: rs, ∀ u : Text, (∀ c ∈ u.head?, c = '\x7d') → matchAll
        (member kindNames) (piece s ++ u) = s.kind.wireName :: matchAll (member kindNames) u :=
      fun s hs u hu => matchAll_kind_piece (h s hs) hu
    rw [matchAll_member_cons areWords_kindNames hbracket, matchAll_pieces areWords_kindNames hpiece
      hhead, List.map_append, List.map_map]
    simp only [Function.comp_def, ofWire?_wireName]
  refine ⟨?_, hasPathName_of_matchAll (by rw [hpaths]; exact List.cons_ne_nil _ _)⟩
  unfold ofMembers?
  dsimp only
  rw [hpaths, hkinds, pairUp_append fun s hs => (h s hs).trim_eq]

/-- A line that starts like a request is a fragment. -/
theorem ofLine?_of_prefix {t : Text} (ht : "[\x7b\"type\"".toList <+: t) : ofLine? t = none := by
  obtain ⟨u, rfl⟩ := ht
  have hsplit : ∀ u, "[\x7b\"type\"".toList ++ u = "[\x7b\"type".toList ++ '"' :: u := fun _ => rfl
  have hquote : Text.isBlank '"' = false := by decide
  -- what is cut off at the end of the line stands behind the name
  have htrim : ∀ u, Text.trim ("[\x7b\"type\"".toList ++ u)
      = "[\x7b\"type\"".toList ++ Text.trimEnd u := by
    intro u
    have hstart : Text.trimStart ("[\x7b\"type\"".toList ++ u) = "[\x7b\"type\"".toList ++ u := rfl
    rw [Text.trim, hstart, hsplit, Text.trimEnd_append_cons hquote, hsplit]
  have hcomma : ∀ u, Text.dropEndWhile (· == ',') ("[\x7b\"type\"".toList ++ u)
      = "[\x7b\"type\"".toList ++ Text.dropEndWhile (· == ',') u := by
    intro u
    rw [hsplit, Text.dropEndWhile_append_cons (by decide), hsplit]
  have hbody : itemBody? ("[\x7b\"type\"".toList ++ u) = none := rfl
  have hword : ∀ u, (fragmentWords.any fun word =>
      Text.hasInfix word ("[\x7b\"type\"".toList ++ u)) = true := by
    intro u
    have hfound : Text.hasInfix "\"type\"".toList ("[\x7b\"type\"".toList ++ u) = true :=
      Text.hasInfix_iff.2 ⟨"[\x7b".toList, u, rfl⟩
    rw [fragmentWords, List.any_cons, hfound, Bool.true_or]
  rw [ofLine?, hbody, Option.getD_none, htrim, hcomma, htrim, hword]
  split
  · rfl
  · rfl

/-- A text that starts a request holds no path on its line. -/
theorem ofLines?_opening {r : Request} {u t : Text} (ht : t <+: '[' :: (opening r ++ u))
    (hlf : Text.lf ∉ t) : ofLines? t = none := by
  by_cases hne : t = []
  · rw [hne]
    rfl
  have hline : ofLine? t = none := by
    -- the text stops inside of the first name, or this name makes it a fragment
    have hword : "[\x7b\"type\"".toList <+: '[' :: (opening r ++ u) := ⟨_, rfl⟩
    rcases List.prefix_or_prefix_of_prefix ht hword with hshort | hlong
    · have hall : ∀ n ≤ 8, "[\x7b\"type\"".toList.take n = [] ∨
          ofLine? ("[\x7b\"type\"".toList.take n) = none := by decide +kernel
      rw [List.prefix_iff_eq_take.1 hshort] at hne ⊢
      exact (hall _ hshort.length_le).resolve_left hne
    · exact ofLine?_of_prefix hlong
  unfold ofLines?
  rw [Text.lines_of_lf_notMem hne hlf, List.filterMap_cons_none hline]
  rfl

/-! ## Requests that are cut off -/

theorem upToLastPath_cons {r : Request} {rs : List Request} (h : ∀ s ∈ r :: rs, IsLiteralPath s.path) :
    upToLastPath (r :: rs) = '[' :: joinWith between ((r :: rs).map piece) := by
  have hsplit : (listJson (r :: rs)).compact
      = ('[' :: joinWith between ((r :: rs).map piece) ++ ['\x7d']) ++ [']'] := by
    rw [compact_listJson h]
    simp
  rw [upToLastPath, hsplit, List.dropLast_concat, List.dropLast_concat]

/-- What is written before a request. -/
def separator (rs : List Request) : Text := if rs = [] then ['['] else between

/-- One more path stands behind the others. -/
theorem upToLastPath_concat {rs : List Request} {r : Request}
    (h : ∀ s ∈ rs ++ [r], IsLiteralPath s.path) :
    upToLastPath (rs ++ [r]) = upToLastPath rs ++ (separator rs ++ piece r) := by
  cases rs with
  | nil =>
    rw [List.nil_append, upToLastPath_cons h]
    simp [upToLastPath, listJson, Json.compact, separator, joinWith]
  | cons s rs =>
    have hfirst : ∀ q ∈ s :: rs, IsLiteralPath q.path := fun q hq => h q (List.mem_append_left _ hq)
    have hne : (s :: rs).map piece ≠ [] := by simp
    rw [List.cons_append] at h ⊢
    rw [upToLastPath_cons h, upToLastPath_cons hfirst, ← List.cons_append, List.map_append,
      Text.joinWith_append between hne (by simp), separator, if_neg (List.cons_ne_nil s rs)]
    simp [joinWith]

/-- The first paths stand in front of what is written for all requests. -/
theorem upToLastPath_take {rs : List Request} (h : ∀ s ∈ rs, IsLiteralPath s.path) (k : Nat) :
    upToLastPath (rs.take k) <+: upToLastPath rs := by
  cases htake : rs.take k with
  | nil => exact List.nil_prefix
  | cons r front =>
    have hsplit := List.take_append_drop k rs
    rw [htake] at hsplit
    rw [← hsplit] at h ⊢
    have hfront : ∀ s ∈ r :: front, IsLiteralPath s.path := fun s hs =>
      h s (List.mem_append_left _ hs)
    rw [List.cons_append] at h ⊢
    rw [upToLastPath_cons h, upToLastPath_cons hfront, ← List.cons_append, List.map_append]
    have hne : (r :: front).map piece ≠ [] := by simp
    obtain ⟨rest, hrest⟩ := Text.exists_joinWith_append between hne ((rs.drop k).map piece)
    rw [hrest]
    exact ⟨rest, rfl⟩

theorem upToLastPath_append {rs : List Request} (hne : rs ≠ []) (h : ∀ s ∈ rs, IsLiteralPath s.path) :
    (listJson rs).compact = upToLastPath rs ++ ['\x7d', ']'] := by
  obtain ⟨r, rs, rfl⟩ := List.exists_cons_of_ne_nil hne
  rw [upToLastPath_cons h, compact_listJson h]
  rfl

/-- What may follow the last whole path of requests that are cut off: some of the two brackets behind
the last request, or the next request up to a place in its path. -/
inductive IsTail (rs : List Request) (t : Text) : Prop
  | closing : rs ≠ [] → t <+: ['\x7d'] → IsTail rs t
  | inside {r : Request} : IsLiteralPath r.path → t <+: separator rs ++ (opening r ++ r.path) →
      IsTail rs t

theorem quote_notMem_separator (rs : List Request) : '"' ∉ separator rs := by
  rw [separator]
  split
  · decide
  · decide

theorem IsTail.matchAll_eq_nil {rs : List Request} {t : Text} (h : IsTail rs t) :
    matchAll (member pathNames) t = [] := by
  cases h with
  | closing _ ht =>
    refine matchAll_member_of_count areWords_pathNames ?_
    have hle := ht.sublist.count_le '"'
    simp at hle
    omega
  | inside hr ht => exact matchAll_path_cut hr (quote_notMem_separator rs) ht

theorem IsTail.head {rs : List Request} (hne : rs ≠ []) {t : Text} (h : IsTail rs t) :
    ∀ c ∈ t.head?, c = '\x7d' := by
  have hprefix : ∀ {u : Text}, t <+: '\x7d' :: u → ∀ c ∈ t.head?, c = '\x7d' := by
    intro u ht c hc
    cases t with
    | nil => cases hc
    | cons d t =>
      obtain rfl : d = c := Option.some.inj hc
      exact (List.cons_prefix_cons.1 ht).1
  cases h with
  | closing _ ht => exact hprefix ht
  | inside _ ht =>
    rw [separator, if_neg hne] at ht
    exact hprefix ht

/-- Requests with whole paths are read from a text that is cut off behind them. -/
theorem resolve_of_isTail {rs : List Request} (h : ∀ r ∈ rs, IsLiteralPath r.path) {t : Text}
    (ht : IsTail rs t) (hlf : Text.lf ∉ upToLastPath rs ++ t)
    (hjson : Json.recover? (upToLastPath rs ++ t) = none) : resolve (upToLastPath rs ++ t) = rs := by
  cases rs with
  | nil =>
    -- no path is whole, and the lines of what there is hold none
    have hnil : upToLastPath [] = [] := rfl
    rw [hnil, List.nil_append] at hlf hjson ⊢
    cases ht with
    | closing hne => exact absurd rfl hne
    | inside hr hprefix =>
      cases t with
      | nil => rfl
      | cons c t =>
        have hbracket : hasBracket (c :: t) = true := by
          obtain rfl : c = '[' := (List.cons_prefix_cons.1 hprefix).1
          rfl
        have hmembers : ofMembers? (c :: t) = none := by
          unfold ofMembers?
          dsimp only
          rw [matchAll_path_cut hr (quote_notMem_separator []) hprefix]
          rfl
        rw [resolve_of_recover?_eq_none hbracket hjson, hmembers, ofLines?_opening hprefix hlf]
        split <;> rfl
  | cons r rs =>
    rw [upToLastPath_cons h] at hlf hjson ⊢
    obtain ⟨hmembers, hname⟩ := ofMembers?_pieces h (ht.head (List.cons_ne_nil r rs)) ht.matchAll_eq_nil
    rw [List.cons_append] at hjson ⊢
    rw [resolve_of_recover?_eq_none rfl hjson, hname, hmembers]
    rfl

/-- A text that is cut off goes up to its last whole path and on to a place before the next. -/
theorem exists_isTail {rs : List Request} (h : ∀ r ∈ rs, IsLiteralPath r.path) (hne : rs ≠ [])
    {t : Text} (ht : t <+: (listJson rs).compact) (hcut : t ≠ (listJson rs).compact) {k : Nat}
    (hk : k ≤ rs.length) (hwhole : upToLastPath (rs.take k) <+: t)
    (hmax : ∀ j ≤ rs.length, upToLastPath (rs.take j) <+: t → j ≤ k) :
    ∃ tail, t = upToLastPath (rs.take k) ++ tail ∧ IsTail (rs.take k) tail := by
  obtain ⟨tail, rfl⟩ := hwhole
  refine ⟨tail, rfl, ?_⟩
  rcases Nat.lt_or_eq_of_le hk with hlt | rfl
  · have htake : rs.take (k + 1) = rs.take k ++ [rs[k]] := by
      rw [List.take_add_one, List.getElem?_eq_getElem hlt]
      rfl
    have hnext : upToLastPath (rs.take (k + 1)) = upToLastPath (rs.take k)
        ++ (separator (rs.take k) ++ (opening rs[k] ++ rs[k].path) ++ ['"']) := by
      rw [htake, upToLastPath_concat, piece]
      · simp only [List.append_assoc]
      · rw [← htake]
        exact fun s hs => h s (List.mem_of_mem_take hs)
    -- the next path is not whole, so the text ends before its closing quote
    have hnot : ¬ upToLastPath (rs.take (k + 1)) <+: upToLastPath (rs.take k) ++ tail := fun hprefix =>
      absurd (hmax (k + 1) hlt hprefix) (by omega)
    have hwritten : upToLastPath (rs.take (k + 1)) <+: (listJson rs).compact := by
      rw [upToLastPath_append hne h]
      exact (upToLastPath_take h (k + 1)).trans (List.prefix_append ..)
    have hshort := (List.prefix_or_prefix_of_prefix ht hwritten).resolve_right hnot
    rw [hnext] at hshort hnot
    rcases List.prefix_concat_iff.1 ((List.prefix_append_right_inj _).1 hshort) with heq | htail
    · rw [heq] at hnot
      exact absurd (List.prefix_refl _) hnot
    · exact .inside (h _ (List.getElem_mem hlt)) htail
  · -- all paths are whole, so only brackets are cut off
    rw [List.take_length] at ht hcut ⊢
    rw [upToLastPath_append hne h] at ht hcut
    have htail : tail <+: ['\x7d'] ++ [']'] := (List.prefix_append_right_inj _).1 ht
    rcases List.prefix_concat_iff.1 htail with rfl | htail
    · exact absurd rfl hcut
    · exact .closing hne htail

/-- One of the whole paths is the last one. -/
theorem exists_lastPath (rs : List Request) (t : Text) : ∃ k ≤ rs.length,
    upToLastPath (rs.take k) <+: t ∧
      ∀ j ≤ rs.length, upToLastPath (rs.take j) <+: t → j ≤ k := by
  have hzero : upToLastPath (rs.take 0) <+: t := List.nil_prefix
  let P : Nat → Prop := fun k => upToLastPath (rs.take k) <+: t
  refine ⟨Nat.findGreatest P rs.length, Nat.findGreatest_le _, ?_, fun j hj hprefix => ?_⟩
  · exact Nat.findGreatest_spec (P := P) (Nat.zero_le _) hzero
  · exact Nat.le_findGreatest (P := P) hj hprefix

/-- The requests of a text that is cut off are those whose paths lie in it up to the closing quote. -/
theorem resolve_take_compact {rs : List Request} (h : ∀ r ∈ rs, IsLiteralPath r.path) (n : Nat) :
    ∃ k ≤ rs.length, resolve ((listJson rs).compact.take n) = rs.take k ∧
      upToLastPath (rs.take k) <+: (listJson rs).compact.take n ∧
      ∀ j ≤ rs.length, upToLastPath (rs.take j) <+: (listJson rs).compact.take n → j ≤ k := by
  have ht := List.take_prefix n (listJson rs).compact
  generalize (listJson rs).compact.take n = t at ht
  obtain ⟨k, hk, hwhole, hmax⟩ := exists_lastPath rs t
  refine ⟨k, hk, ?_, hwhole, hmax⟩
  by_cases hne : rs = []
  · subst hne
    -- two brackets without a path, or some of them
    have hall : ∀ m ≤ 2, resolve ((listJson []).compact.take m) = [] := by decide +kernel
    rw [List.take_nil, List.prefix_iff_eq_take.1 ht]
    exact hall _ ht.length_le
  by_cases hcut : t = (listJson rs).compact
  · have hlast : upToLastPath (rs.take rs.length) <+: t := by
      rw [List.take_length, hcut, upToLastPath_append hne h]
      exact List.prefix_append ..
    have hall : rs.take k = rs := List.take_of_length_le (hmax rs.length (Nat.le_refl _) hlast)
    rw [hcut, hall]
    exact resolve_listJson hne (fun r hr => nonBlank?_eq_some (h r hr).ne_nil (h r hr).trim_eq)
      fun r hr => (h r hr).plain
  · have hjson : Json.recover? t = none :=
      Json.recover?_eq_none_of_cut (isReadable_listJson rs) rfl
        (forall_mem_texts_listJson (by decide) fun r hr => (h r hr).plain) ht hcut
    have hlf : Text.lf ∉ t := fun hmem =>
      absurd (Json.le_toNat_compact (isReadable_listJson rs) _ (ht.subset hmem)) (by decide)
    obtain ⟨tail, rfl, htail⟩ := exists_isTail h hne ht hcut hk hwhole hmax
    exact resolve_of_isTail (fun r hr => h r (List.mem_of_mem_take hr)) htail hlf hjson

/-- A file and a directory that have the names of members. -/
def sampleRequests : List Request := [file "type".toList, listing "path".toList]

/-- The first request is left when the cut is in the path of the second one. -/
theorem resolve_take_compact_sample : (∀ r ∈ sampleRequests, IsLiteralPath r.path) ∧
    resolve ((listJson sampleRequests).compact.take 77) = [file "type".toList] := by
  have hpaths : ∀ r ∈ sampleRequests, IsLiteralPath r.path := by decide
  obtain ⟨k, hk, hresolve, hwhole, hmax⟩ := resolve_take_compact hpaths 77
  have hfirst : 1 ≤ k := hmax 1 (by decide) (by decide)
  have hsecond : k ≠ 2 := by
    rintro rfl
    revert hwhole
    decide
  have hlength : sampleRequests.length = 2 := rfl
  obtain rfl : k = 1 := by omega
  exact ⟨hpaths, hresolve⟩

end Request

end Mend
