import Mend.Proofs.Json.Embedded
import Mend.Proofs.Text.Order

/-!
# JSON in prose

An array or an object is recovered from a text that has any characters behind it and none but
brackets of its own in front (`Json.recover_prose`): in the compact form or the indented one, with
or without the lines of a fenced block around it, and whatever its own texts hold. The value comes
back as it is, not just as it is read, if the members of its objects stand in the order of their
names (`Json.IsSorted`, `Json.asRead_of_isSorted`).
-/

namespace Mend

open Text (lf)

namespace Json

/-! ## Objects in order -/

mutual

/-- In every object the members stand in the order of their names, each name once. -/
def IsSorted : Json → Prop
  | array vs => AreSorted vs
  | object ms => (ms.Pairwise fun a b => Text.le b.1 a.1 = false) ∧ HaveSorted ms
  | _ => True

/-- Items with all their objects in order. -/
def AreSorted : List Json → Prop
  | [] => True
  | v :: vs => v.IsSorted ∧ AreSorted vs

/-- Members with all objects in their values in order. -/
def HaveSorted : List (Text × Json) → Prop
  | [] => True
  | (_, v) :: ms => v.IsSorted ∧ HaveSorted ms

end

/-- A name that comes after all others is put at the end. -/
theorem insertMember_of_forall {kept : List (Text × Json)} {name : Text}
    (h : ∀ m ∈ kept, Text.le name m.1 = false) (v : Json) :
    insertMember name v kept = kept ++ [(name, v)] := by
  induction kept with
  | nil => rfl
  | cons m kept ih =>
    rw [List.forall_mem_cons] at h
    have hne : name ≠ m.1 := by
      rintro rfl
      exact Bool.false_ne_true (h.1.symm.trans (Text.le_refl m.1))
    rw [insertMember, if_neg hne, h.1, if_neg Bool.false_ne_true, ih h.2]
    rfl

/-- Members in order are put one behind the other. -/
theorem foldl_insertMember {kept ms : List (Text × Json)}
    (h : (kept ++ ms).Pairwise fun a b => Text.le b.1 a.1 = false) :
    ms.foldl (fun kept m => insertMember m.1 m.2 kept) kept = kept ++ ms := by
  induction ms generalizing kept with
  | nil => exact (List.append_nil kept).symm
  | cons m ms ih =>
    have hlast : ∀ a ∈ kept, Text.le m.1 a.1 = false := fun a ha =>
      (List.pairwise_append.1 h).2.2 a ha m (List.mem_cons_self ..)
    have hgroup : kept ++ m :: ms = kept ++ [m] ++ ms := by simp
    rw [List.foldl_cons, insertMember_of_forall hlast, ih (hgroup ▸ h), hgroup]

/-- Members in order are left as they are. -/
theorem ofMembers_eq_object {ms : List (Text × Json)}
    (h : ms.Pairwise fun a b => Text.le b.1 a.1 = false) : ofMembers ms = object ms := by
  rw [← List.nil_append ms] at h
  exact congrArg object (foldl_insertMember h)

mutual

/-- A value with its objects in order is read as it is. -/
theorem asRead_of_isSorted : ∀ {v : Json}, v.IsSorted → v.asRead = v
  | array vs, h => by rw [asRead, itemsAsRead_of_areSorted h]
  | object ms, h => by rw [asRead, membersAsRead_of_haveSorted h.2, ofMembers_eq_object h.1]
  | null, _ => rfl
  | bool _, _ => rfl
  | number _, _ => rfl
  | text _, _ => rfl

theorem itemsAsRead_of_areSorted : ∀ {vs : List Json}, AreSorted vs → itemsAsRead vs = vs
  | [], _ => rfl
  | v :: vs, h => by rw [itemsAsRead, asRead_of_isSorted h.1, itemsAsRead_of_areSorted h.2]

theorem membersAsRead_of_haveSorted : ∀ {ms : List (Text × Json)}, HaveSorted ms →
    membersAsRead ms = ms
  | [], _ => rfl
  | (k, v) :: ms, h => by
    rw [membersAsRead, asRead_of_isSorted h.1, membersAsRead_of_haveSorted h.2]

end

/-! ## Recovery from prose -/

/-- The text is `x` by itself, or between the lines that open and close a fenced block. -/
inductive IsBlock (x : Text) : Text → Prop
  | bare : IsBlock x x
  | fenced {opening closing : Text} : lf ∉ opening → Text.fence <+: opening → lf ∉ closing →
      Text.fence <+: closing → IsBlock x (opening ++ lf :: (x ++ lf :: closing))

section

variable {v : Json} (h : v.IsReadable maxDepth) (hv : v.isBracketed = true)
  (hplain : ∀ t ∈ v.texts, t.plainQuotes = t)

include h hv hplain

/-- A value in any layout is recovered from behind lines that are passed over. -/
theorem Layout.recover?_unlines (l : Layout) {ls : List Text} (hlf : ∀ m ∈ ls, lf ∉ m)
    (hls : ∀ m ∈ ls, Text.IsPassed m) (rest : Text) :
    recover? (Text.unlines ls ++ (l.write 0 v ++ lf :: rest)) = some v.asRead := by
  have hread := l.read?_write 0 h isGap_nil
  rw [List.append_nil] at hread
  exact (embeds_of_read? hread).recover?_unlines (v.isBracketed_asRead.trans hv)
    (l.plainQuotes_write 0 h hplain) hlf hls rest

/-- An array or an object is recovered from prose that has no brackets in front of it, whatever comes
after it. -/
theorem recover_prose (hsorted : v.IsSorted) {pre x block : Text}
    (hpre : ∀ c ∈ pre, Nesting.isOpener c = false) (hx : x = v.compact ∨ x = v.pretty)
    (hblock : IsBlock x block) (post : Text) :
    recover? (pre ++ lf :: (block ++ lf :: post)) = some v := by
  obtain ⟨l, rfl⟩ : ∃ l : Layout, x = l.write 0 v := by
    rcases hx with rfl | rfl
    · exact ⟨.tight, (Layout.tight_write v 0).symm⟩
    · exact ⟨.indented, (Layout.indented_write v 0).symm⟩
  rw [← asRead_of_isSorted hsorted]
  -- the lines of the text in front have no brackets either
  have hlf : ∀ m ∈ pre.splitOn lf, lf ∉ m := fun m hm => Text.sep_notMem_of_mem_splitOn hm
  have hpassed : ∀ m ∈ pre.splitOn lf, Text.IsPassed m := fun m hm =>
    .inr fun c hc => hpre c (Text.mem_of_mem_splitOn hm hc)
  have hlines : pre ++ [lf] = Text.unlines (pre.splitOn lf) := by
    rw [Text.unlines_eq_joinWith (List.splitOn_ne_nil lf pre), Text.joinWith_splitOn]
  cases hblock with
  | bare =>
    -- the value stands behind the lines of the prose
    have hrecover := l.recover?_unlines h hv hplain hlf hpassed post
    rwa [← hlines, List.append_assoc, List.singleton_append] at hrecover
  | @fenced opening closing hopening hfence =>
    -- the line that opens the block is one more line in front; the one that closes it comes after
    have hmarked : Text.IsPassed opening := by
      obtain ⟨back, rfl⟩ := hfence
      exact .inl (Text.isFence_iff.2 ⟨[], back, rfl, List.forall_mem_nil _⟩)
    have hrecover := l.recover?_unlines h hv hplain
      (List.forall_mem_append.2 ⟨hlf, List.forall_mem_singleton.2 hopening⟩)
      (List.forall_mem_append.2 ⟨hpassed, List.forall_mem_singleton.2 hmarked⟩)
      (closing ++ lf :: post)
    rw [Text.unlines_append, ← hlines] at hrecover
    simpa using hrecover

end

/-- An object with brackets, quotes and backticks in its texts. -/
def quotingObject : Json :=
  .object [("k]\"".toList, .array [.number (.nat 18), .number (.neg 2), .object [], .null]),
    ("t".toList, .text "[\x60\x60\x60 it\\'s\n\x7b".toList)]

/-- Prose with quotes, a backtick and closing brackets in it. -/
def quotingProse : Text := "Here's \"it\" ]\x7d\x60:\nas asked".toList

/-- The object in a fenced block whose first line has a bracket. -/
def quotingBlock : Text :=
  "\x60\x60\x60json [".toList ++ lf :: (quotingObject.pretty ++ lf :: "\x60\x60\x60".toList)

theorem recover_prose_sample : quotingObject.IsReadable maxDepth ∧
    quotingObject.isBracketed = true ∧ (∀ t ∈ quotingObject.texts, t.plainQuotes = t) ∧
    quotingObject.IsSorted ∧ (∀ c ∈ quotingProse, Nesting.isOpener c = false) ∧
    IsBlock quotingObject.pretty quotingBlock ∧
    recover? (quotingProse ++ lf :: (quotingBlock ++ lf :: "[\" and more\x7d".toList))
      = some quotingObject := by
  have hread : quotingObject.IsReadable maxDepth := by
    simp [quotingObject, IsReadable, HaveReadable, AreReadable, JsonNumber.IsWhole,
      JsonNumber.wordBound, maxDepth]
  have hplain : ∀ t ∈ quotingObject.texts, t.plainQuotes = t := by decide
  have hsorted : quotingObject.IsSorted :=
    ⟨by decide, ⟨trivial, trivial, ⟨List.Pairwise.nil, trivial⟩, trivial, trivial⟩, trivial, trivial⟩
  have hpre : ∀ c ∈ quotingProse, Nesting.isOpener c = false :=
    Text.forall_mem_of_all (by decide)
  have hblock : IsBlock quotingObject.pretty quotingBlock :=
    .fenced (by decide) ⟨_, rfl⟩ (by decide) ⟨_, rfl⟩
  exact ⟨hread, rfl, hplain, hsorted, hpre, hblock,
    recover_prose hread rfl hplain hsorted hpre (.inr rfl) hblock _⟩

end Json

end Mend
