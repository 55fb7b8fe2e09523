import Mend.Proofs.Revision.Basic

/-!
# The last line feed

Whether a file ends with a line feed is a single flag of its buffer, and only the marks of a patch
change it: a mark after a kept or an added line clears it, a mark after a removed line sets it
(`Revision.Edit.ends`). The main statement is that the marks of a revision leave the flag as the new
side wants it (`Revision.endedLast_newLines`).

The induction goes over the lines of the revision in order (`Revision.steps`). Its invariant is that
the flag says how the rest of the old side ends.
-/

namespace Mend

namespace Revision

/-- Whether an edit removes a line. -/
def Edit.isRemoval : Edit → Bool
  | remove _ => true
  | _ => false

/-- Whether the file ends with a line feed after an edit, when it did so before as `ended` says. -/
def Edit.ends (ended : Bool) (e : Edit) : Bool := if e.line.ended then ended else e.isRemoval

theorem Edit.ends_of_ended {e : Edit} (h : e.line.ended = true) (ended : Bool) :
    e.ends ended = ended := by
  rw [Edit.ends, if_pos h]

/-- One line of a revision. -/
inductive Step where
  /-- A line between hunks. -/
  | pass (l : FileLine)
  /-- A line of a hunk. -/
  | edit (e : Edit)

namespace Step

/-- The lines of the old side. -/
def old : Step → List FileLine
  | pass l => [l]
  | edit e => e.old

/-- The lines of the new side. -/
def new : Step → List FileLine
  | pass l => [l]
  | edit e => e.new

/-- The edit of a line of a hunk. -/
def edit? : Step → Option Edit
  | pass _ => none
  | edit e => some e

/-- Whether the file ends with a line feed after a line of a revision. -/
def ends (ended : Bool) : Step → Bool
  | pass _ => ended
  | edit e => e.ends ended

@[simp]
theorem edit?_pass (l : FileLine) : (pass l).edit? = none := rfl

@[simp]
theorem edit?_edit (e : Edit) : (edit e).edit? = some e := rfl

end Step

/-- The lines of a revision in order. -/
def steps (r : Revision) : List Step :=
  r.hunks.flatMap (fun h => h.gap.map Step.pass ++ h.edits.map Step.edit) ++ r.rest.map Step.pass

theorem steps_old (r : Revision) : r.steps.flatMap Step.old = r.oldLines := by
  simp [steps, oldLines, Hunk.old, List.flatMap_assoc, List.flatMap_map, Step.old]

theorem steps_new (r : Revision) : r.steps.flatMap Step.new = r.newLines := by
  simp [steps, newLines, Hunk.new, List.flatMap_assoc, List.flatMap_map, Step.new]

theorem steps_edits (r : Revision) : r.steps.filterMap Step.edit? = r.edits := by
  simp [steps, edits, List.filterMap_flatMap, List.filterMap_map, Step.edit?, Function.comp_def]

theorem foldl_steps_ends (r : Revision) (ended : Bool) :
    r.steps.foldl Step.ends ended = r.edits.foldl Edit.ends ended := by
  have hpass : ∀ (ls : List FileLine) (b : Bool), (ls.map Step.pass).foldl Step.ends b = b := by
    intro ls b
    induction ls with
    | nil => rfl
    | cons l ls ih => simpa [Step.ends] using ih
  have hhunks : ∀ (hs : List Hunk) (b : Bool),
      (hs.flatMap fun h => h.gap.map Step.pass ++ h.edits.map Step.edit).foldl Step.ends b
        = (hs.flatMap Hunk.edits).foldl Edit.ends b := by
    intro hs b
    induction hs generalizing b with
    | nil => rfl
    | cons h hs ih =>
      simp only [List.flatMap_cons, List.foldl_append, hpass, List.foldl_map, ih]
      rfl
  rw [steps, List.foldl_append, hpass, hhunks, edits]

/-- A removed line stands on the old side. -/
theorem mem_old_of_remove {ss : List Step} {l : FileLine}
    (h : Edit.remove l ∈ ss.filterMap Step.edit?) : l ∈ ss.flatMap Step.old := by
  obtain ⟨s, hs, he⟩ := List.mem_filterMap.1 h
  refine List.mem_flatMap.2 ⟨s, hs, ?_⟩
  cases s with
  | pass m => simp at he
  | edit e =>
    obtain rfl : e = .remove l := by simpa using he
    simp [Step.old, Edit.old]

/-- Once the new side is complete, removing lines that have their line feed changes nothing. -/
theorem foldl_ends_of_new_eq_nil {ss : List Step} (hnew : ss.flatMap Step.new = [])
    (hended : ∀ l, Edit.remove l ∈ ss.filterMap Step.edit? → l.ended = true) (ended : Bool) :
    ss.foldl Step.ends ended = ended := by
  induction ss with
  | nil => rfl
  | cons s ss ih =>
    rw [List.flatMap_cons, List.append_eq_nil_iff] at hnew
    rw [List.foldl_cons]
    cases s with
    | pass l => simp [Step.new] at hnew
    | edit e =>
      cases e with
      | keep l => simp [Step.new, Edit.new] at hnew
      | add l => simp [Step.new, Edit.new] at hnew
      | remove l =>
        have hl : l.ended = true := hended l (by simp)
        have hrest := ih hnew.2 fun m hm => hended m (List.mem_cons_of_mem _ hm)
        simpa [Step.ends, Edit.ends, Edit.line, hl] using hrest

theorem foldl_ends_of_eq_nil {ss : List Step} (hold : ss.flatMap Step.old = [])
    (hnew : ss.flatMap Step.new = []) (ended : Bool) : ss.foldl Step.ends ended = ended := by
  apply foldl_ends_of_new_eq_nil hnew
  intro l hl
  have := mem_old_of_remove hl
  rw [hold] at this
  cases this

/-- The marks take the flag of the old side to the flag of the new side. -/
theorem foldl_ends {ss : List Step}
    (hold : (ss.flatMap Step.old).Pairwise fun l _ => l.ended = true)
    (hnew : (ss.flatMap Step.new).Pairwise fun l _ => l.ended = true)
    (hopen : (ss.filterMap Step.edit?).Pairwise fun a b => a.reopensEnd b = false) :
    ss.foldl Step.ends (FileLine.endedLast (ss.flatMap Step.old))
      = FileLine.endedLast (ss.flatMap Step.new) := by
  -- the flag before a step says how the old side ends from there on
  induction ss with
  | nil => rfl
  | cons s ss ih =>
    rw [List.flatMap_cons] at hold hnew
    rw [List.foldl_cons, List.flatMap_cons, List.flatMap_cons]
    have hrest := ih (List.pairwise_append.1 hold).2.1 (List.pairwise_append.1 hnew).2.1
    cases s with
    | pass l =>
      simp only [Step.old, Step.new, Step.ends, List.singleton_append] at hold hnew ⊢
      cases hl : l.ended with
      | true =>
        rw [FileLine.endedLast_cons_of_ended hl, FileLine.endedLast_cons_of_ended hl]
        exact hrest hopen
      | false =>
        -- nothing follows on either side, so no mark follows
        have hold' := FileLine.eq_nil_of_not_ended hold hl
        have hnew' := FileLine.eq_nil_of_not_ended hnew hl
        rw [foldl_ends_of_eq_nil hold' hnew', hold', hnew']
    | edit e =>
      rw [List.filterMap_cons_some (Step.edit?_edit e)] at hopen
      have hrest := hrest hopen.of_cons
      cases e with
      | keep l =>
        simp only [Step.old, Step.new, Step.ends, Edit.old, Edit.new, List.singleton_append]
          at hold hnew ⊢
        cases hl : l.ended with
        | true =>
          rw [Edit.ends_of_ended (e := .keep l) hl, FileLine.endedLast_cons_of_ended hl,
            FileLine.endedLast_cons_of_ended hl]
          exact hrest
        | false =>
          have hold' := FileLine.eq_nil_of_not_ended hold hl
          have hnew' := FileLine.eq_nil_of_not_ended hnew hl
          rw [foldl_ends_of_eq_nil hold' hnew', hnew']
          simp [Edit.ends, Edit.line, Edit.isRemoval, hl]
      | remove l =>
        simp only [Step.old, Step.new, Step.ends, Edit.old, Edit.new, List.singleton_append,
          List.nil_append] at hold ⊢
        cases hl : l.ended with
        | true =>
          rw [Edit.ends_of_ended (e := .remove l) hl, FileLine.endedLast_cons_of_ended hl]
          exact hrest
        | false =>
          -- the old side is complete, and the mark sets the flag
          have hold' := FileLine.eq_nil_of_not_ended hold hl
          rw [hold', FileLine.endedLast_nil] at hrest
          simpa [Edit.ends, Edit.line, Edit.isRemoval, hl] using hrest
      | add l =>
        simp only [Step.old, Step.new, Step.ends, Edit.old, Edit.new, List.singleton_append,
          List.nil_append] at hnew ⊢
        cases hl : l.ended with
        | true =>
          rw [Edit.ends_of_ended (e := .add l) hl, FileLine.endedLast_cons_of_ended hl]
          exact hrest
        | false =>
          -- the new side is complete, and no later mark sets the flag again
          have hnew' := FileLine.eq_nil_of_not_ended hnew hl
          have hended : ∀ m, Edit.remove m ∈ ss.filterMap Step.edit? → m.ended = true := by
            intro m hm
            have := List.rel_of_pairwise_cons hopen hm
            simpa [Edit.reopensEnd, hl] using this
          rw [foldl_ends_of_new_eq_nil hnew' hended, hnew']
          simp [Edit.ends, Edit.line, Edit.isRemoval, hl]

/-- The marks of a well-formed revision leave the flag of the buffer as the new side wants it. -/
theorem endedLast_newLines {r : Revision} (h : r.WellFormed) :
    r.edits.foldl Edit.ends (FileLine.endedLast r.oldLines) = FileLine.endedLast r.newLines := by
  -- lines between hunks are steps too, so that the steps hold all lines of both sides
  rw [← foldl_steps_ends, ← steps_old, ← steps_new]
  apply foldl_ends
  · rw [steps_old]
    exact h.old_side.ended_of_later
  · rw [steps_new]
    exact h.new_side.ended_of_later
  · rw [steps_edits]
    exact h.no_reopen

/-! ## Removed lines before added lines -/

/-- When removed lines come before added lines in each run of changes, nothing is removed once the
new side has ended. -/
theorem pairwise_reopensEnd {es : List Edit}
    (hnew : (es.flatMap Edit.new).Pairwise fun l _ => l.ended = true)
    (h : es.IsChain fun a b => a.addsThenRemoves b = false) :
    es.Pairwise fun a b => a.reopensEnd b = false := by
  induction es with
  | nil => exact List.Pairwise.nil
  | cons e es ih =>
    rw [List.flatMap_cons] at hnew
    have hrest := ih (List.pairwise_append.1 hnew).2.1 h.tail
    refine List.pairwise_cons.2 ⟨fun f hf => ?_, hrest⟩
    cases e with
    | keep l => rfl
    | remove l => rfl
    | add l =>
      cases hl : l.ended with
      | true => cases f <;> simp [Edit.reopensEnd, hl]
      | false =>
        have hnil : es.flatMap Edit.new = [] := FileLine.eq_nil_of_not_ended hnew hl
        -- the next line of the revision could only be removed
        cases es with
        | nil => cases hf
        | cons g es =>
          have hchain := (List.isChain_cons_cons.1 h).1
          rw [List.flatMap_cons, List.append_eq_nil_iff] at hnil
          cases g <;> simp_all [Edit.new, Edit.addsThenRemoves]

/-- The edits of the hunks stand in the whole script in their order. -/
theorem edits_sublist_script (r : Revision) : r.edits.Sublist r.script := by
  have hhunks : ∀ hs : List Hunk, (hs.flatMap Hunk.edits).Sublist
      (hs.flatMap fun h => h.gap.map Edit.keep ++ h.edits) := by
    intro hs
    induction hs with
    | nil => exact List.Sublist.refl []
    | cons h hs ih =>
      rw [List.flatMap_cons, List.flatMap_cons]
      exact (List.sublist_append_right _ _).append ih
  exact (hhunks r.hunks).trans (List.sublist_append_left _ _)

/-- Removed lines before added lines, also over hunks without a line between them, are enough for
the last line feed. -/
theorem no_reopen_of_isChain {r : Revision} (hnew : FileLine.IsSide r.newLines)
    (h : r.script.IsChain fun a b => a.addsThenRemoves b = false) :
    r.edits.Pairwise fun a b => a.reopensEnd b = false := by
  have hscript : r.script.Pairwise fun a b => a.reopensEnd b = false := by
    apply pairwise_reopensEnd _ h
    rw [script_new]
    exact hnew.ended_of_later
  exact hscript.sublist (edits_sublist_script r)

end Revision

end Mend
