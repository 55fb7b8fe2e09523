import Mend.Proofs.Turn.Rereading

/-!
# The shape of every turn that is read

A session acts on a turn by precedence: a signal goes before a patch, a patch before requests. That
needs turns of one shape, whatever the reply is and whichever way it is read: by a completion marker,
as one JSON value, or by its sections, with or without a delimiter that ends them
(`Turn.shape_parse`).
-/

namespace Mend

namespace Turn

/-- The shape of a turn. -/
structure Shape (t : Turn) : Prop where
  /-- Each path is asked for once. -/
  nodup : (t.requests.map Request.path).Nodup
  /-- With a signal nothing is asked for and nothing is changed. -/
  signalled : t.signal ≠ .none → t.requests = [] ∧ t.patch = []
  /-- A completion signal stands alone. -/
  completed : t.signal = .fin ∨ t.signal = .noChangesNeeded →
    t.thought = none ∧ t.plan = none ∧ t.goals = none ∧ t.comment = []
  thought : ∀ s ∈ t.thought, s ≠ [] ∧ s.trim = s
  plan : ∀ s ∈ t.plan, s ≠ [] ∧ s.trim = s
  goals : ∀ s ∈ t.goals, s ≠ [] ∧ s.trim = s
  patch : t.patch.trim = t.patch
  comment : t.comment.trim = t.comment
  /-- The plan of a turn that asks for nothing names no file. -/
  unplanned : t.signal = .none → t.requests = [] → ∀ plan ∈ t.plan, Request.ofPlan plan = []

/-- A text that is there is not empty, and trimmed when the texts of its turn are. -/
theorem ne_nil_and_trim_of_mem {field : Option Text} (hne : field ≠ some [])
    (htrim : (field.getD []).trim = field.getD []) : ∀ s ∈ field, s ≠ [] ∧ s.trim = s := by
  intro s hs
  obtain rfl : field = some s := hs
  exact ⟨fun hnil => hne (congrArg some hnil), htrim⟩

theorem IsParsed.trim_body {t : Turn} (h : t.IsParsed) (tag : Tag) (htag : tag ∈ textTags) :
    (t.body tag).trim = t.body tag :=
  h.trim_eq _ (List.mem_map_of_mem htag)

/-- What the reader sees to makes the shape. -/
theorem IsParsed.shape {t : Turn} (h : t.IsParsed) : t.Shape where
  nodup := h.nodup
  signalled hsignal := by
    cases hs : t.signal with
    | none => exact absurd hs hsignal
    | fin =>
      rw [h.completed (.inl hs)]
      exact ⟨rfl, rfl⟩
    | noChangesNeeded =>
      rw [h.completed (.inr hs)]
      exact ⟨rfl, rfl⟩
    | verificationReport => exact h.reviewed (.inl hs)
    | readyForFinalCheck => exact h.reviewed (.inr hs)
  completed hsignal := by
    rw [h.completed hsignal]
    exact ⟨rfl, rfl, rfl, rfl⟩
  thought := ne_nil_and_trim_of_mem h.thought_ne (h.trim_body .thought (by decide))
  plan := ne_nil_and_trim_of_mem h.plan_ne (h.trim_body .plan (by decide))
  goals := ne_nil_and_trim_of_mem h.goals_ne (h.trim_body .goals (by decide))
  patch := h.trim_body .patch (by decide)
  comment := h.trim_body .comment (by decide)
  unplanned := h.unplanned

/-- Every reply is read as a turn of that shape. -/
theorem shape_parse (raw : Text) : (parse raw).Shape := (isParsed_parse raw).shape

end Turn

end Mend
