import Mend.Proofs.Json.Brackets
import Mend.Request.Resolve

/-!
# Which stage reads a section

The first stage with a result wins. A text with a bracket is read as JSON
(`Request.resolve_of_recover?`), and when it is none by its members and then by its lines
(`Request.resolve_of_recover?_eq_none`). A text without brackets is read by its lines when it is no
prose and has no members (`Request.resolve_of_lines`).
-/

namespace Mend

namespace Request

theorem Stage.run?_of_applies {stage : Stage} {t : Text} (h : stage.applies t = true) :
    stage.run? t = stage.extract t :=
  if_pos h

theorem Stage.run?_eq_none {stage : Stage} {t : Text} (h : stage.applies t = false) :
    stage.run? t = none :=
  if_neg (by simp [h])

theorem Stage.extract_of_run? {stage : Stage} {t : Text} {rs : List Request}
    (h : stage.run? t = some rs) : stage.extract t = some rs := by
  rw [Stage.run?] at h
  split at h
  · exact h
  · cases h

/-- A stage without a result leaves the text to the next one. -/
theorem Stage.run?_of_extract {stage : Stage} {t : Text} (h : stage.extract t = none) :
    stage.run? t = none := by
  rw [Stage.run?]
  split
  · exact h
  · rfl

/-- A bracket is no blank, so a text with a bracket is not empty when it is trimmed. -/
theorem isEmpty_trim_of_hasBracket {t : Text} (h : hasBracket t = true) : t.trim.isEmpty = false := by
  obtain ⟨c, hc, hopen⟩ := List.any_eq_true.1 h
  have hmem : c ∈ t.trim := Text.mem_trim (Nesting.isBlank_of_isOpener hopen).1 hc
  exact List.isEmpty_eq_false_iff.2 (List.ne_nil_of_mem hmem)

/-- Requests that are recovered are the result: the other stages are not tried. -/
theorem resolve_of_recover? {t : Text} {v : Json} (hbracket : hasBracket t = true)
    (hrecover : Json.recover? t = some v) (hne : listOfJson v ≠ []) : resolve t = listOfJson v := by
  have hfound : ofRecovered? t = some (listOfJson v) := by
    rw [ofRecovered?, hrecover]
    simp [hne]
  have hfirst : Stage.run? ⟨"json".toList, hasBracket, ofRecovered?⟩ t = some (listOfJson v) :=
    (Stage.run?_of_applies hbracket).trans hfound
  rw [resolve, isEmpty_trim_of_hasBracket hbracket, stages, List.findSome?_cons, hfirst]
  rfl

/-- A text with a bracket that is no JSON is read by its members, and else by its lines. -/
theorem resolve_of_recover?_eq_none {t : Text} (hbracket : hasBracket t = true)
    (hjson : Json.recover? t = none) : resolve t =
      ((if hasPathName t then ofMembers? t else none).or (ofLines? t)).getD [] := by
  have hfound : ofRecovered? t = none := by
    unfold ofRecovered?
    rw [hjson]
  have hlist : isList t = false := by
    rw [isList, hbracket]
    rfl
  have hfirst : Stage.run? ⟨"json".toList, hasBracket, ofRecovered?⟩ t = none :=
    (Stage.run?_of_applies hbracket).trans hfound
  have hsecond : Stage.run? ⟨"prose_list".toList, isList, ofProse?⟩ t = none :=
    Stage.run?_eq_none hlist
  have hempty := isEmpty_trim_of_hasBracket hbracket
  have hlast : Stage.run? ⟨"lines".toList, fun t => !t.trim.isEmpty, ofLines?⟩ t = ofLines? t :=
    Stage.run?_of_applies (by simp [hempty])
  rw [resolve, hempty, stages, List.findSome?_cons, hfirst, List.findSome?_cons, hsecond,
    List.findSome?_cons, List.findSome?_cons, hlast, Stage.run?]
  cases if hasPathName t then ofMembers? t else none with
  | none =>
    cases ofLines? t <;> rfl
  | some rs => rfl

/-- A text without brackets is read by its lines when it is no prose and has no members. -/
theorem resolve_of_lines {t : Text} (hempty : t.trim.isEmpty = false) (hbracket : hasBracket t = false)
    (hprose : ofProse? t = none) (hmembers : ofMembers? t = none) :
    resolve t = (ofLines? t).getD [] := by
  have hfirst : Stage.run? ⟨"json".toList, hasBracket, ofRecovered?⟩ t = none :=
    Stage.run?_eq_none hbracket
  have hsecond : Stage.run? ⟨"prose_list".toList, isList, ofProse?⟩ t = none :=
    Stage.run?_of_extract hprose
  have hthird : Stage.run? ⟨"key_pairs".toList, hasPathName, ofMembers?⟩ t = none :=
    Stage.run?_of_extract hmembers
  have hlast : Stage.run? ⟨"lines".toList, fun t => !t.trim.isEmpty, ofLines?⟩ t = ofLines? t :=
    Stage.run?_of_applies (by simp [hempty])
  rw [resolve, hempty, stages, List.findSome?_cons, hfirst, List.findSome?_cons, hsecond,
    List.findSome?_cons, hthird, List.findSome?_cons, hlast]
  cases ofLines? t <;> rfl

end Request

end Mend
