import Mend.Proofs.Turn.Sections

/-!
# The part of a reply that is read

A reply is read from its first delimiter on (`Turn.parse_append_tagged`) and up to the one that ends it
(`Turn.ofDelimited_append_terminal`), unless a marker completes it or it is one JSON value as a whole. A
reply without delimiters is read as nothing (`Turn.parse_untagged`).

Whether a reply can be a JSON value is seen at its first character that is no blank
(`Turn.startsBracketed`). Where nothing else stands in front of the line that ends the reply, this is
the line's own first character. A line may start with a bracket and name the delimiter in a text
behind it; then what follows the line decides whether the reply is a JSON value
(`Turn.parse_region_ne`).
-/

namespace Mend

open Text (lf)

namespace Turn

/-! ## Beginnings of replies -/

/-- Whether a text starts, blanks aside, like a JSON array or object. -/
def startsBracketed (t : Text) : Bool := t.trim.head?.any Nesting.isOpener

/-- How a reply starts is decided in front of a line feed, unless there are only blanks. -/
theorem startsBracketed_append_lf (t u : Text) :
    startsBracketed (t ++ lf :: u) = if t.trim = [] then startsBracketed u else startsBracketed t := by
  have hblank : t.trim = [] ↔ t.find? (fun c => !Text.isBlank c) = none := by
    rw [← Text.head?_trim, List.head?_eq_none_iff]
  simp only [startsBracketed, hblank, Text.head?_trim, List.find?_append]
  cases t.find? fun c => !Text.isBlank c <;> rfl

/-- A text starts like its first delimiter. -/
theorem startsBracketed_of_nameAtStart? {t : Text} {found : Text × Text}
    (h : TagLine.nameAtStart? t = some found) : startsBracketed t = false := by
  obtain ⟨u, rfl⟩ := TagLine.exists_cons_of_nameAtStart? h
  rw [startsBracketed, Text.head?_trim]
  rfl

/-- A line with a delimiter is not blank. -/
theorem trim_ne_nil_of_find? {l : Text} {found : TagLine} (h : TagLine.find? l = some found) :
    l.trim ≠ [] := by
  have hpercent : '%' ∈ l := by
    refine Decidable.byContradiction fun hno => ?_
    have hnone := TagLine.firstName?_append hno []
    rw [List.append_nil] at hnone
    rw [TagLine.find?, hnone] at h
    cases h
  exact List.ne_nil_of_mem (Text.mem_trim (by decide) hpercent)

theorem ofJson?_eq_none_of_startsBracketed {raw : Text} (h : startsBracketed raw = false) :
    ofJson? raw = none := by
  rw [startsBracketed] at h
  rw [ofJson?, h]
  rfl

/-! ## Before the first delimiter -/

/-- Lines in front of the first delimiter belong to no section. -/
theorem scanLines_untagged {ls : List Text} (h : ∀ l ∈ ls, TagLine.find? l = none)
    (rest : List Text) : scanLines none (ls ++ rest) = scanLines none rest := by
  induction ls with
  | nil => rfl
  | cons l ls ih =>
    rw [List.forall_mem_cons] at h
    rw [List.cons_append, scanLines_plain h.1, ih h.2]
    rfl

section Untagged

variable {pre : Text} (hpre : TagLine.find? pre = none) (hstart : startsBracketed pre = false)

include hpre hstart

/-- A reply without delimiters is read as nothing. -/
theorem parse_untagged : parse pre = {} := by
  have hscan := scanLines_untagged
    (fun l hl => find?_of_mem_lines (fun _ => TagLine.find?_of_mem_splitOn hpre) hl) []
  rw [List.append_nil] at hscan
  rw [parse, TagLine.hasInfix_finMarker hpre, TagLine.hasInfix_noChangesMarker hpre,
    ofJson?_eq_none_of_startsBracketed hstart, ofDelimited, hscan]
  rfl

/-- What stands in front of the first delimiter is not read. -/
theorem parse_append_tagged {t : Text} {found : Text × Text}
    (ht : TagLine.nameAtStart? t = some found) : parse (pre ++ lf :: t) = parse t := by
  have hfin : Text.hasInfix Tag.finMarker (pre ++ lf :: t) = Text.hasInfix Tag.finMarker t := by
    rw [Text.hasInfix_append_cons (by decide) (by decide), TagLine.hasInfix_finMarker hpre,
      Bool.false_or]
  have hnoChanges : Text.hasInfix Tag.noChangesMarker (pre ++ lf :: t)
      = Text.hasInfix Tag.noChangesMarker t := by
    rw [Text.hasInfix_append_cons (by decide) (by decide), TagLine.hasInfix_noChangesMarker hpre,
      Bool.false_or]
  -- a delimiter is no bracket, so neither text is a JSON value
  have htagged := startsBracketed_of_nameAtStart? ht
  have hwhole : startsBracketed (pre ++ lf :: t) = false := by
    rw [startsBracketed_append_lf, hstart, htagged, ite_self]
  have hlines : ∀ l ∈ ((pre.splitOn lf).map Text.dropCr).map Text.dropCr,
      TagLine.find? l = none := by
    simpa using fun l => TagLine.find?_of_mem_splitOn hpre
  rw [parse, parse, hfin, hnoChanges, ofJson?_eq_none_of_startsBracketed hwhole,
    ofJson?_eq_none_of_startsBracketed htagged, ofDelimited, ofDelimited, Text.lines_append_lf,
    List.map_append, scanLines_untagged hlines]

end Untagged

/-! ## Behind the delimiter that ends a reply -/

/-- Ends of replies that are scanned to the same are scanned to the same behind lines. -/
theorem scanLines_append_congr {ends ends' : List Text}
    (h : ∀ current, scanLines current ends = scanLines current ends') (ls : List Text)
    (current : Option Tag) : scanLines current (ls ++ ends) = scanLines current (ls ++ ends') := by
  induction ls generalizing current with
  | nil => exact h current
  | cons l ls ih => simp only [List.cons_append, scanLines, ih]

section Terminal

variable {front l after : Text} {tag : Tag} (hlf : lf ∉ l)
  (hfind : TagLine.find? l = some ⟨tag, after⟩) (htag : tag.isTerminal = true)

include hlf hfind htag

/-- What stands behind the delimiter that ends a reply is not among its sections. -/
theorem ofDelimited_append_terminal (rest rest' : Text) :
    ofDelimited (front ++ lf :: (l ++ lf :: rest)) = ofDelimited (front ++ lf :: (l ++ lf :: rest')) := by
  have hline : TagLine.find? (Text.dropCr (Text.dropCr l)) = some ⟨tag, after⟩ := by
    rw [TagLine.find?_dropCr, TagLine.find?_dropCr, hfind]
  have hscan : ∀ rest : Text,
      scanLines none ((front ++ lf :: (l ++ lf :: rest)).lines.map Text.dropCr)
        = scanLines none (((front.splitOn lf).map Text.dropCr).map Text.dropCr
            ++ [Text.dropCr (Text.dropCr l)]) := by
    intro rest
    rw [Text.lines_append_lf, Text.lines_append_cons hlf, List.map_append, List.map_cons]
    refine scanLines_append_congr (fun current => ?_) _ none
    rw [scanLines_terminal hline htag, scanLines_terminal hline htag]
  rw [ofDelimited, ofDelimited, hscan, hscan]

end Terminal

/-- A reply is no JSON value because of how it starts, or where nothing stands in front of the line
of the delimiter and the line itself starts with a bracket, because of the rest. -/
theorem ofJson?_append_terminal {front l rest : Text} {found : TagLine}
    (hfind : TagLine.find? l = some found) (hfront : startsBracketed front = false)
    (hjson : front.trim = [] → startsBracketed l = true →
      ofJson? (front ++ lf :: (l ++ lf :: rest)) = none) :
    ofJson? (front ++ lf :: (l ++ lf :: rest)) = none := by
  cases hstart : startsBracketed (front ++ lf :: (l ++ lf :: rest)) with
  | false => exact ofJson?_eq_none_of_startsBracketed hstart
  | true =>
    rw [startsBracketed_append_lf, startsBracketed_append_lf, if_neg (trim_ne_nil_of_find? hfind),
      hfront] at hstart
    split at hstart
    · rename_i hblank
      exact hjson hblank hstart
    · cases hstart

/-! ## The part that is read -/

/-- A reply is read from its first delimiter on, and up to a delimiter that ends it; what has none is
read as nothing. -/
theorem parse_region :
    (∀ {pre : Text}, TagLine.find? pre = none → startsBracketed pre = false →
      parse pre = {} ∧ ∀ {t : Text} {found : Text × Text}, TagLine.nameAtStart? t = some found →
        parse (pre ++ lf :: t) = parse t) ∧
    ∀ {front l after : Text} {tag : Tag}, startsBracketed front = false → lf ∉ l →
      TagLine.find? l = some ⟨tag, after⟩ → tag.isTerminal = true → ∀ {rest rest' : Text},
      (∀ raw ∈ [front ++ lf :: (l ++ lf :: rest), front ++ lf :: (l ++ lf :: rest')],
        Text.hasInfix Tag.finMarker raw = false ∧ Text.hasInfix Tag.noChangesMarker raw = false ∧
          (front.trim = [] → startsBracketed l = true → ofJson? raw = none)) →
      parse (front ++ lf :: (l ++ lf :: rest)) = parse (front ++ lf :: (l ++ lf :: rest')) := by
  refine ⟨fun hpre hstart => ⟨parse_untagged hpre hstart, parse_append_tagged hpre hstart⟩, ?_⟩
  intro front l after tag hfront hlf hfind htag rest rest' hraw
  -- both replies are read by their sections, which are the same
  rw [List.forall_mem_cons, List.forall_mem_singleton] at hraw
  obtain ⟨⟨hfin, hnoChanges, hjson⟩, hfin', hnoChanges', hjson'⟩ := hraw
  rw [parse, parse, hfin, hnoChanges, hfin', hnoChanges',
    ofJson?_append_terminal hfind hfront hjson,
    ofJson?_append_terminal hfind hfront hjson',
    ofDelimited_append_terminal hlf hfind htag rest rest']

/-- A line that asks for a final review. -/
def reviewLine : Text := "[%_Ready_For_Final_Check_%\r".toList

theorem parse_region_sample :
    TagLine.find? "See [1]:\n".toList = none ∧ startsBracketed "See [1]:\n".toList = false ∧
      TagLine.nameAtStart? "%_Plan_% a".toList = some ("Plan".toList, " a".toList) ∧
      parse ("See [1]:\n".toList ++ lf :: "%_Plan_% a".toList) = parse "%_Plan_% a".toList ∧
      TagLine.find? reviewLine = some ⟨.finalCheck, []⟩ ∧
      parse ("%_Plan_% a".toList ++ lf :: (reviewLine ++ lf :: ['x']))
        = parse ("%_Plan_% a".toList ++ lf :: (reviewLine ++ lf :: [])) := by
  have hpre : TagLine.find? "See [1]:\n".toList = none := by decide
  have hstart : startsBracketed "See [1]:\n".toList = false := by decide
  have htagged : TagLine.nameAtStart? "%_Plan_% a".toList = some ("Plan".toList, " a".toList) := by
    decide
  have hfind : TagLine.find? reviewLine = some ⟨.finalCheck, []⟩ := by decide
  exact ⟨hpre, hstart, htagged, (parse_region.1 hpre hstart).2 htagged, hfind,
    parse_region.2 (by decide) (by decide) hfind rfl (by decide)⟩

/-- A line that starts with a bracket and names the delimiter in a text. -/
def bracketedLine : Text := "[\"%_Ready_For_Final_Check_%\",".toList

/-- What makes a JSON value of the line. -/
def bracketedRest : Text := "\x7b\"path\": \"a\"\x7d]".toList

/-- A delimiter inside of a JSON value does not end the reply that the value is. -/
theorem parse_region_ne :
    startsBracketed [] = false ∧ lf ∉ bracketedLine ∧
      TagLine.find? bracketedLine = some ⟨.finalCheck, ['"', ',']⟩ ∧
      (∀ raw ∈ [[] ++ lf :: (bracketedLine ++ lf :: bracketedRest),
          [] ++ lf :: (bracketedLine ++ lf :: [])],
        Text.hasInfix Tag.finMarker raw = false ∧ Text.hasInfix Tag.noChangesMarker raw = false) ∧
      parse ([] ++ lf :: (bracketedLine ++ lf :: bracketedRest))
        ≠ parse ([] ++ lf :: (bracketedLine ++ lf :: [])) := by
  refine ⟨by decide, by decide, by decide, by decide, fun h => ?_⟩
  -- the whole reply is a JSON value, which has no signal
  have hvalue : (parse ([] ++ lf :: (bracketedLine ++ lf :: bracketedRest))).signal = .none := by
    decide +kernel
  have hline : (parse ([] ++ lf :: (bracketedLine ++ lf :: []))).signal = .readyForFinalCheck := by
    decide +kernel
  rw [h, hline] at hvalue
  cases hvalue

end Turn

end Mend
