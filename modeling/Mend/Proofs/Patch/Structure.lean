import Mathlib.Data.Int.Notation
import Mathlib.Data.List.Induction
import Mend.Patch.Structure
import Mend.Proofs.Patch.Composition
import Mend.Proofs.Patch.Conservation

/-!
# The structure of a patch and its tokens

The files of a patch are read off its tokens one by one. The header of a new side adds a file
(`Patch.targets_addToken`), and the other tokens change the last file alone
(`Patch.FileEdit.Amends`). The lines of hunks are counted for it, because it has a hunk by then
(`Patch.hunks_ne_nil_of_inHunk`).

What counts for the effect of a patch is what it adds to the files that it does not delete
(`Patch.net` of `Patch.withoutDeletions`). A line counts there when the last file is such a file
(`Patch.net_concat`).
-/

namespace Mend

namespace Patch

/-! ## The paths of a patch -/

namespace FileEdit

/-- The path of an edit, and whether it deletes. -/
def target (e : FileEdit) : Text × Bool := (e.path, e.deletes)

end FileEdit

theorem map_modifyLast {α β : Type} {f : α → α} {g : α → β} (h : ∀ a, g (f a) = g a)
    (as : List α) : (modifyLast f as).map g = as.map g := by
  fun_induction modifyLast f as with
  | case1 => rfl
  | case2 a => simp [h]
  | case3 a b rest ih => simp [ih]

/-- A token adds the target of a new side, if it is one. -/
theorem targets_addToken (state : List FileEdit × Option Text) (token : Token) :
    (addToken state token).1.map FileEdit.target = state.1.map FileEdit.target ++
      match token.kind with
      | .newHeader path => [((path.or state.2).getD [], path.isNone)]
      | _ => [] := by
  obtain ⟨edits, old⟩ := state
  obtain ⟨line, kind⟩ := token
  cases kind with
  | newHeader path => simp [addToken, FileEdit.target]
  | hunk header | remove t | add t =>
    rw [List.append_nil]
    refine map_modifyLast (fun e => ?_) edits
    rfl
  | _ => simp [addToken]

theorem target_mem_foldl {tokens : List Token} {line : Nat} {path : Text}
    (h : ⟨line, .newHeader (some path)⟩ ∈ tokens) (state : List FileEdit × Option Text) :
    (path, false) ∈ (tokens.foldl addToken state).1.map FileEdit.target := by
  have hkept : ∀ (tokens : List Token) state,
      (path, false) ∈ state.1.map FileEdit.target →
      (path, false) ∈ (tokens.foldl addToken state).1.map FileEdit.target := by
    intro tokens
    induction tokens with
    | nil => exact fun state => id
    | cons token tokens ih =>
      intro state hmem
      refine ih _ ?_
      rw [targets_addToken]
      exact List.mem_append_left _ hmem
  obtain ⟨before, after, rfl⟩ := List.append_of_mem h
  rw [List.foldl_append, List.foldl_cons]
  refine hkept after _ ?_
  rw [targets_addToken]
  exact List.mem_append_right _ (List.mem_singleton_self _)

/-- A path of the new side is that of an edit that deletes nothing. -/
theorem Opens.exists_edit {patch path : Text} (h : Opens patch path) :
    ∃ edits e, Patch.edits patch = .ok edits ∧ e ∈ edits ∧ e.deletes = false ∧ e.path = path := by
  obtain ⟨tokens, line, htokens, hmem⟩ := h
  obtain ⟨e, he, htarget⟩ := List.mem_map.1 (target_mem_foldl hmem ([], none))
  rw [FileEdit.target, Prod.mk.injEq] at htarget
  exact ⟨_, e, by rw [Patch.edits, htokens]; rfl, he, htarget.2, htarget.1⟩

/-! ## Hunks -/

theorem modifyLast_concat {α : Type} (f : α → α) (as : List α) (a : α) :
    modifyLast f (as ++ [a]) = as ++ [f a] := by
  induction as with
  | nil => rfl
  | cons b as ih =>
    cases as with
    | nil => rfl
    | cons c as => rw [List.cons_append, List.cons_append, modifyLast, ← List.cons_append, ih]; rfl

theorem modifyLast_ne_nil {α : Type} {f : α → α} {as : List α} (h : as ≠ []) :
    modifyLast f as ≠ [] := by
  obtain ⟨front, last, rfl⟩ := List.eq_nil_or_concat' as |>.resolve_left h
  rw [modifyLast_concat]
  simp

/-- The added lines less the removed ones. -/
def net (edits : List FileEdit) : ℤ := (lineCounts edits).1 - (lineCounts edits).2

/-- How many lines more a file has after a line of a hunk. -/
def gain : TokenKind → ℤ
  | .add _ => 1
  | .remove _ => -1
  | _ => 0

theorem net_append (edits others : List FileEdit) :
    net (edits ++ others) = net edits + net others := by
  simp only [net, lineCounts, List.flatMap_append, List.map_append, List.sum_append, Int.natCast_add]
  omega

/-- What a token other than a file header makes of the last file. -/
structure FileEdit.Amends (kind : TokenKind) (e e' : FileEdit) : Prop where
  target : e'.target = e.target
  /-- A hunk header opens a hunk, and no hunk is taken back. -/
  hunks : e.hunks ≠ [] ∨ (∃ header, kind = .hunk header) → e'.hunks ≠ []
  /-- A line of a hunk is counted if there is a hunk. -/
  counted : (isHunkLine kind = true → e.hunks ≠ []) → net [e'] = net [e] + gain kind

/-- A change of the last hunk. -/
theorem FileEdit.amends_modifyLast {kind : TokenKind} {f : Hunk → Hunk}
    (hline : isHunkLine kind = true)
    (hf : ∀ h : Hunk, ((f h).added.length : ℤ) - (f h).removed.length
      = h.added.length - h.removed.length + gain kind) (e : FileEdit) :
    e.Amends kind { e with hunks := modifyLast f e.hunks } where
  target := rfl
  hunks := by
    rintro (h | ⟨header, rfl⟩)
    · exact modifyLast_ne_nil h
    · cases hline
  counted hhunks := by
    obtain ⟨front, last, hlast⟩ := List.eq_nil_or_concat' e.hunks |>.resolve_left (hhunks hline)
    have hcounted := hf last
    rw [hlast, modifyLast_concat, net, net, lineCounts, lineCounts]
    simp only [List.flatMap_singleton, hlast, List.map_append, List.map_singleton, List.sum_append,
      List.sum_singleton, Int.natCast_add]
    omega

/-- Tokens other than file headers change the last file alone. -/
theorem exists_amends {state : List FileEdit × Option Text} {front : List FileEdit} {last : FileEdit}
    (hstate : state.1 = front ++ [last]) {kind : TokenKind} (hkind : isFileHeader kind = false)
    (n : Nat) :
    ∃ last', (addToken state ⟨n, kind⟩).1 = front ++ [last'] ∧ last.Amends kind last' := by
  obtain ⟨edits, old⟩ := state
  obtain rfl : edits = front ++ [last] := hstate
  cases kind with
  | oldHeader _ | newHeader _ => cases hkind
  | hunk header =>
    refine ⟨_, modifyLast_concat .., rfl, fun _ => by simp, fun _ => ?_⟩
    simp [net, lineCounts, gain]
  | remove t =>
    refine ⟨_, modifyLast_concat .., FileEdit.amends_modifyLast rfl (fun h => ?_) last⟩
    simp only [List.length_append, List.length_singleton, gain]
    omega
  | add t =>
    refine ⟨_, modifyLast_concat .., FileEdit.amends_modifyLast rfl (fun h => ?_) last⟩
    simp only [List.length_append, List.length_singleton, gain]
    omega
  -- the structure has no place for the other tokens
  | context _ | noNewline | other =>
    exact ⟨last, rfl, rfl, fun h => h.resolve_right nofun, fun _ => (Int.add_zero _).symm⟩

/-- Before the first file there is nothing to change. -/
theorem addToken_of_nil {state : List FileEdit × Option Text} (hstate : state.1 = [])
    {kind : TokenKind} (hkind : isFileHeader kind = false) (n : Nat) : (addToken state ⟨n, kind⟩).1 = [] := by
  obtain ⟨edits, old⟩ := state
  obtain rfl : edits = [] := hstate
  cases kind with
  | oldHeader _ | newHeader _ => cases hkind
  | _ => rfl

/-! ## The tokens so far -/

/-- The files that tokens describe. -/
def editsOf (tokens : List Token) : List FileEdit := (tokens.foldl addToken ([], none)).1

theorem edits_of_tokenize {patch : Text} {tokens : List Token} (h : tokenize patch = .ok tokens) :
    edits patch = .ok (editsOf tokens) := by
  rw [edits, h]
  rfl

/-- Where the reader of lines stands after tokens. -/
def stateAfter (tokens : List Token) : LineState :=
  tokens.foldl (fun st token => st.after token.kind) ⟨false, false⟩

theorem stateAfter_concat (tokens : List Token) (token : Token) :
    stateAfter (tokens ++ [token]) = (stateAfter tokens).after token.kind := by
  rw [stateAfter, List.foldl_append]
  rfl

theorem editsOf_concat (tokens : List Token) (token : Token) :
    editsOf (tokens ++ [token]) = (addToken (tokens.foldl addToken ([], none)) token).1 := by
  rw [editsOf, List.foldl_append]
  rfl

/-- A line of a hunk stands below a hunk header. -/
theorem inHunk_of_inHunks {front back : List Token} {token : Token} {st : LineState}
    (h : InHunks st (front ++ token :: back)) (hline : isHunkLine token.kind = true) :
    (front.foldl (fun st token => st.after token.kind) st).inHunk = true := by
  induction front generalizing st with
  | nil => exact h.1 hline
  | cons first front ih => exact ih h.2

/-- In a hunk, the last file has one. -/
theorem hunks_ne_nil_of_inHunk {tokens : List Token} (h : (stateAfter tokens).inHunk = true) :
    ∀ last ∈ (editsOf tokens).getLast?, last.hunks ≠ [] := by
  -- induction on the tokens read so far
  induction tokens using List.reverseRecOn with
  | nil => cases h
  | append_singleton tokens token ih =>
    obtain ⟨n, kind⟩ := token
    rw [stateAfter_concat] at h
    by_cases hkind : isFileHeader kind = false
    · intro last' hlast'
      rcases List.eq_nil_or_concat' (editsOf tokens) with hnil | ⟨front, last, hlast⟩
      · rw [editsOf_concat, addToken_of_nil hnil hkind] at hlast'
        cases hlast'
      · obtain ⟨amended, heq, hamends⟩ := exists_amends hlast hkind n
        rw [editsOf_concat, heq, List.getLast?_concat, Option.mem_some_iff] at hlast'
        subst hlast'
        refine hamends.hunks ?_
        by_cases hheader : ∃ header, kind = .hunk header
        · exact .inr hheader
        · -- the token leaves the reader of lines in the hunk where it was
          refine .inl (ih ?_ last (by rw [hlast, List.getLast?_concat]; rfl))
          cases kind with
          | oldHeader _ | newHeader _ => cases hkind
          | hunk header => exact absurd ⟨header, rfl⟩ hheader
          | _ => exact h
    · -- a file header ends the hunk
      cases kind with
      | oldHeader _ | newHeader _ => cases h
      | _ => exact absurd rfl hkind

/-! ## Files that are not deleted -/

/-- The files that are not deleted. -/
def withoutDeletions (edits : List FileEdit) : List FileEdit := edits.filter fun e => !e.deletes

/-- Whether there is a last file and it is not deleted. -/
def lastKept (edits : List FileEdit) : Bool := edits.getLast?.any fun e => !e.deletes

theorem net_withoutDeletions_concat (edits : List FileEdit) (e : FileEdit) :
    net (withoutDeletions (edits ++ [e]))
      = net (withoutDeletions edits) + if e.deletes then 0 else net [e] := by
  rw [withoutDeletions, List.filter_append, net_append, withoutDeletions]
  cases hdeletes : e.deletes with
  | true => simp [hdeletes, net, lineCounts]
  | false => simp [hdeletes]

theorem lastKept_concat (edits : List FileEdit) (e : FileEdit) :
    lastKept (edits ++ [e]) = !e.deletes := by
  rw [lastKept, List.getLast?_concat]
  rfl

/-- A token is counted when the last file is not deleted. -/
theorem net_concat {tokens : List Token} {kind : TokenKind} (hkind : isFileHeader kind = false)
    (hline : isHunkLine kind = true → (stateAfter tokens).inHunk = true) (n : Nat) :
    lastKept (editsOf (tokens ++ [⟨n, kind⟩])) = lastKept (editsOf tokens) ∧
      net (withoutDeletions (editsOf (tokens ++ [⟨n, kind⟩])))
        = net (withoutDeletions (editsOf tokens))
          + if lastKept (editsOf tokens) then gain kind else 0 := by
  rcases List.eq_nil_or_concat' (editsOf tokens) with hnil | ⟨front, last, hlast⟩
  · -- before the first file nothing is counted, as there is no file to change
    rw [editsOf_concat, addToken_of_nil hnil hkind, hnil]
    exact ⟨rfl, rfl⟩
  · obtain ⟨last', heq, hamends⟩ := exists_amends hlast hkind n
    have hdeletes : last'.deletes = last.deletes := congrArg Prod.snd hamends.target
    have hcounted : net [last'] = net [last] + gain kind := by
      refine hamends.counted fun hhunk => hunks_ne_nil_of_inHunk (hline hhunk) last ?_
      rw [hlast, List.getLast?_concat]
      rfl
    rw [editsOf_concat, heq, hlast, lastKept_concat, lastKept_concat, net_withoutDeletions_concat,
      net_withoutDeletions_concat, hdeletes, hcounted]
    refine ⟨rfl, ?_⟩
    cases last.deletes with
    | true => exact (Int.add_zero _).symm
    | false => exact (Int.add_assoc ..).symm

/-- The header of an old side is not counted. -/
theorem editsOf_concat_oldHeader (tokens : List Token) (n : Nat) (path : Option Text) :
    editsOf (tokens ++ [⟨n, .oldHeader path⟩]) = editsOf tokens := by
  rw [editsOf_concat]
  rfl

/-- The header of a new side starts a file without lines. -/
theorem net_concat_newHeader (tokens : List Token) (n : Nat) (path : Option Text) :
    lastKept (editsOf (tokens ++ [⟨n, .newHeader path⟩])) = path.isSome ∧
      net (withoutDeletions (editsOf (tokens ++ [⟨n, .newHeader path⟩])))
        = net (withoutDeletions (editsOf tokens)) := by
  rw [editsOf_concat, addToken, lastKept_concat, net_withoutDeletions_concat]
  refine ⟨by cases path <;> rfl, ?_⟩
  simp [net, lineCounts, editsOf]

/-- The files that are not deleted are those with a path on the new side. -/
theorem mem_paths_withoutDeletions {tokens : List Token} {path : Text} :
    path ∈ (withoutDeletions (editsOf tokens)).map FileEdit.path ↔
      ∃ n, ⟨n, .newHeader (some path)⟩ ∈ tokens := by
  have htarget : ∀ edits : List FileEdit, path ∈ (withoutDeletions edits).map FileEdit.path ↔
      (path, false) ∈ edits.map FileEdit.target := by
    simp [withoutDeletions, FileEdit.target, and_comm, and_assoc, and_left_comm]
  rw [htarget]
  constructor
  · intro hmem
    -- each token adds at most the file that it names
    induction tokens using List.reverseRecOn with
    | nil => cases hmem
    | append_singleton tokens token ih =>
      rw [editsOf_concat, targets_addToken] at hmem
      rcases List.mem_append.1 hmem with hold | hnew
      · obtain ⟨n, hn⟩ := ih hold
        exact ⟨n, List.mem_append_left _ hn⟩
      · obtain ⟨n, kind⟩ := token
        cases kind with
        | newHeader target =>
          cases target with
          | none => simp at hnew
          | some target =>
            obtain rfl : path = target := by simpa using hnew
            exact ⟨n, List.mem_append_right _ (List.mem_singleton_self _)⟩
        | _ => cases hnew
  · rintro ⟨n, hmem⟩
    exact target_mem_foldl hmem ([], none)

end Patch

end Mend
