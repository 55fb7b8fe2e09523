import Mend.Proofs.Patch.Run
import Mend.Proofs.Text.Lines

/-!
# Lines and their tokens

A token has the number of the line that it is read from (`Patch.exists_line_of_mem`), and the tokens
of a hunk say what their line is: the text of a removed, added or kept line stands behind its mark
(`Patch.hunkLine_of_classify`). A patch that cannot be read is refused at its first line that starts
like a hunk header and is none (`Patch.exists_line_of_error`).
-/

namespace Mend

open Text (lf)

namespace Patch

/-- The line with a number, counted from one. Lines stand between line feeds, and a carriage return
at the end of one does not count. -/
def HasLine (patch : Text) (n : Nat) (line : Text) : Prop :=
  (line, n) ∈ ((patch.splitOn lf).map Text.dropCr).zipIdx 1

/-- The line feed that ends a patch starts one more line, which is not read. -/
theorem patchLines_prefix (patch : Text) :
    patchLines patch <+: (patch.splitOn lf).map Text.dropCr := by
  rw [patchLines]
  by_cases h : [lf] <:+ patch
  · obtain ⟨body, rfl⟩ := h
    rw [Text.dropSuffix_append, Text.splitOn_append_cons, List.map_append]
    exact List.prefix_append ..
  · simp only [Text.dropSuffix_eq_self h, List.prefix_rfl]

theorem lf_notMem_of_mem_patchLines {patch l : Text} (hl : l ∈ patchLines patch) : lf ∉ l := by
  obtain ⟨piece, hpiece, rfl⟩ := List.mem_map.1 hl
  exact fun hmem => Text.sep_notMem_of_mem_splitOn hpiece ((Text.dropCr_sublist piece).subset hmem)

theorem hasLine_of_mem {patch line : Text} {n : Nat} (h : (line, n) ∈ (patchLines patch).zipIdx 1) :
    HasLine patch n line := by
  obtain ⟨last, hlast⟩ := patchLines_prefix patch
  rw [HasLine, ← hlast, List.zipIdx_append]
  exact List.mem_append_left _ h

/-- The lines before a line that is read are read. -/
theorem mem_of_hasLine {patch line other : Text} {n m : Nat}
    (hline : (line, n) ∈ (patchLines patch).zipIdx 1) (hm : m < n) (h : HasLine patch m other) :
    (other, m) ∈ (patchLines patch).zipIdx 1 := by
  obtain ⟨last, hlast⟩ := patchLines_prefix patch
  rw [HasLine, ← hlast, List.zipIdx_append] at h
  refine (List.mem_append.1 h).resolve_right fun hmem => ?_
  have hle : 1 + (patchLines patch).length ≤ m := List.le_snd_of_mem_zipIdx hmem
  have hlt : n < (patchLines patch).length + 1 := List.snd_lt_of_mem_zipIdx hline
  omega

/-! ## Lines of hunks -/

/-- A token of a hunk is read by the mark of its line. -/
theorem hunkLine_of_classify {st : LineState} {n : Nat} {line : Text} {next : Option Text}
    {kind : TokenKind} (h : classify st n line next = .ok kind) (hkind : isHunkLine kind = true) :
    hunkLine line = kind := by
  unfold classify at h
  -- in the other branches the token is a header, or none of a hunk
  split at h
  · split at h
    · cases h
      cases hkind
    · exact Except.ok.inj h
  · split at h
    · cases h
      cases hkind
    · exact Except.ok.inj h
  · split at h
    · split at h
      · cases h
        cases hkind
      · cases h
    · split at h
      · exact Except.ok.inj h
      · cases h
        cases hkind

theorem eq_of_hunkLine_remove {line t : Text} (h : hunkLine line = .remove t) : line = '-' :: t := by
  unfold hunkLine at h
  split at h <;> cases h
  rfl

theorem eq_of_hunkLine_add {line t : Text} (h : hunkLine line = .add t) : line = '+' :: t := by
  unfold hunkLine at h
  split at h <;> cases h
  rfl

/-- An empty line is an empty context line that lost its space. -/
theorem eq_of_hunkLine_context {line t : Text} (h : hunkLine line = .context t) :
    line = ' ' :: t ∨ line = [] ∧ t = [] := by
  unfold hunkLine at h
  split at h <;> cases h
  · exact .inr ⟨rfl, rfl⟩
  · exact .inl rfl

theorem head?_of_hunkLine_noNewline {line : Text} (h : hunkLine line = .noNewline) :
    line.head? = some '\\' := by
  unfold hunkLine at h
  split at h <;> cases h
  rfl

/-! ## Patches -/

section Tokens

variable {ls : List Text} {st : LineState} {n : Nat}

/-- Every token is read from the line with its number. -/
theorem exists_line_of_mem {ts : List Token} (h : tokenizeFrom st n ls = .ok ts) {token : Token}
    (htoken : token ∈ ts) : ∃ st' line next, (line, token.line) ∈ ls.zipIdx n ∧
      classify st' token.line line next = .ok token.kind := by
  induction ls generalizing st n ts with
  | nil =>
    cases h
    cases htoken
  | cons l ls ih =>
    rw [tokenizeFrom] at h
    split at h
    · cases h
    rename_i kind hkind
    split at h
    · cases h
    rename_i rest hrest
    cases h
    rw [List.zipIdx_cons]
    rcases List.mem_cons.1 htoken with rfl | htoken
    · exact ⟨st, l, ls.head?, List.mem_cons_self .., hkind⟩
    · obtain ⟨st', line, next, hline, hclassify⟩ := ih hrest htoken
      exact ⟨st', line, next, List.mem_cons_of_mem _ hline, hclassify⟩

/-- A line that is no hunk header stops the reader if it starts like one. -/
theorem eq_of_classify_error {line : Text} {next : Option Text} {err : PatchError}
    (h : classify st n line next = .error err) :
    err = .unparseableHeader n line ∧ hunkMark <+: line ∧ hunkHeader? line = none := by
  unfold classify at h
  split at h
  · split at h <;> cases h
  · split at h <;> cases h
  · split at h
    · rename_i hmark
      split at h
      · cases h
      · rename_i hheader
        cases h
        exact ⟨rfl, List.isPrefixOf_iff_prefix.1 hmark, hheader⟩
    · split at h <;> cases h

/-- A line that starts like a hunk header is one if it is read. -/
theorem hunkHeader?_of_classify {line : Text} {next : Option Text} {kind : TokenKind}
    (h : classify st n line next = .ok kind) (hmark : hunkMark <+: line) :
    hunkHeader? line ≠ none := by
  obtain ⟨rest, rfl⟩ := hmark
  intro hnone
  have hold : Text.dropPrefix? oldMark (hunkMark ++ rest) = none := rfl
  have hnew : Text.dropPrefix? newMark (hunkMark ++ rest) = none := rfl
  have hprefix : hunkMark.isPrefixOf (hunkMark ++ rest) = true :=
    List.isPrefixOf_iff_prefix.2 (List.prefix_append ..)
  rw [classify, hold, hnew] at h
  dsimp only at h
  rw [if_pos hprefix, hnone] at h
  cases h

/-- A patch that cannot be read is refused at the first line that starts like a hunk header and is
none. -/
theorem exists_line_of_error {err : PatchError} (h : tokenizeFrom st n ls = .error err) :
    ∃ m text, err = .unparseableHeader m text ∧ (text, m) ∈ ls.zipIdx n ∧ hunkMark <+: text ∧
      hunkHeader? text = none ∧
      ∀ line i, (line, i) ∈ ls.zipIdx n → i < m → hunkMark <+: line → hunkHeader? line ≠ none := by
  induction ls generalizing st n with
  | nil => cases h
  | cons l ls ih =>
    rw [tokenizeFrom] at h
    rw [List.zipIdx_cons]
    split at h
    · rename_i hclassify
      cases h
      obtain ⟨rfl, hmark, hheader⟩ := eq_of_classify_error hclassify
      refine ⟨n, l, rfl, List.mem_cons_self .., hmark, hheader, ?_⟩
      intro line i hmem hi
      have hle : n ≤ i := List.le_snd_of_mem_zipIdx (List.zipIdx_cons ▸ hmem)
      exact absurd hi (Nat.not_lt.2 hle)
    · rename_i kind hclassify
      split at h
      · rename_i hrest
        cases h
        obtain ⟨m, text, rfl, htext, hmark, hheader, hearlier⟩ := ih hrest
        refine ⟨m, text, rfl, List.mem_cons_of_mem _ htext, hmark, hheader, ?_⟩
        intro line i hmem hi
        rcases List.mem_cons.1 hmem with heq | hmem
        · obtain ⟨rfl, rfl⟩ := Prod.mk.inj heq
          exact hunkHeader?_of_classify hclassify
        · exact hearlier line i hmem hi
      · cases h

end Tokens

end Patch

end Mend
