import Mend.Proofs.Diff.Script

/-!
# Groups of operations

Grouping cuts long kept parts: a few of their lines stay at the ends of groups as context, and the
rest falls between the groups. `Diff.Covers` says that groups and the lines between them make up the
edits of a script, and the main statement is that grouping a script gives groups that cover its
edits (`Diff.covers_groups`).

The first group shows where it stands: it starts at the first old line or with a kept one, and holds
an old line when there is any (`Diff.isAnchored_groups`).
-/

namespace Mend

namespace Diff

open Revision

/-- Groups that stand at and after two positions and that make up edits together with kept lines
before, between and after them. -/
inductive Covers : Nat → Nat → List (List Op) → List Edit → Prop where
  | rest (i j : Nat) (ls : List FileLine) : Covers i j [] (ls.map .keep)
  | gap {i j : Nat} {gs : List (List Op)} {es : List Edit} (ls : List FileLine)
      (h : Covers (i + ls.length) (j + ls.length) gs es) : Covers i j gs (ls.map .keep ++ es)
  | group {i j : Nat} {gs : List (List Op)} {es : List Edit} {ps : List Part} (hne : ps ≠ [])
      (h : Covers (i + (oldOf ps).length) (j + (newOf ps).length) gs es) :
      Covers i j (opsAt i j ps :: gs) (editsOf ps ++ es)

/-- Kept lines after everything else. -/
theorem Covers.append_rest {i j : Nat} {gs : List (List Op)} {es : List Edit}
    (h : Covers i j gs es) (ls : List FileLine) : Covers i j gs (es ++ ls.map .keep) := by
  induction h with
  | rest i j ms =>
    rw [← List.map_append]
    exact .rest i j (ms ++ ls)
  | gap ms _ ih =>
    rw [List.append_assoc]
    exact .gap ms ih
  | group hne _ ih =>
    rw [List.append_assoc]
    exact .group hne ih

/-! ## Trimming -/

theorem exists_trimFront (n i j : Nat) (ps : List Part) :
    ∃ (ls : List FileLine) (ps' : List Part), trimFront n (opsAt i j ps)
        = opsAt (i + ls.length) (j + ls.length) ps' ∧
      ls.map .keep ++ editsOf ps' = editsOf ps := by
  cases ps with
  | nil => exact ⟨[], [], rfl, rfl⟩
  | cons p ps =>
    cases p with
    | keep ls =>
      have hfront : (ls.take (ls.length - n)).length = ls.length - n := by
        rw [List.length_take]
        omega
      refine ⟨ls.take (ls.length - n), .keep (ls.drop (ls.length - n)) :: ps, ?_, ?_⟩
      · simp [opsAt, trimFront, Part.op, Part.kind, Part.old, Part.new, Op.move, Op.resize,
          Nat.add_assoc]
      · rw [editsOf_cons, editsOf_cons, Part.edits, Part.edits, ← List.append_assoc,
          ← List.map_append, List.take_append_drop]
    | delete os => exact ⟨[], .delete os :: ps, rfl, rfl⟩
    | insert ns => exact ⟨[], .insert ns :: ps, rfl, rfl⟩
    | replace os ns => exact ⟨[], .replace os ns :: ps, rfl, rfl⟩

theorem exists_trimBack (n i j : Nat) (ps : List Part) :
    ∃ (ps' : List Part) (ls : List FileLine), trimBack n (opsAt i j ps) = opsAt i j ps' ∧
      editsOf ps' ++ ls.map .keep = editsOf ps := by
  induction ps generalizing i j with
  | nil => exact ⟨[], [], rfl, rfl⟩
  | cons p ps ih =>
    cases ps with
    | nil =>
      cases p with
      | keep ls =>
        refine ⟨[.keep (ls.take n)], ls.drop n, ?_, ?_⟩
        · simp [opsAt, trimBack, Part.op, Part.kind, Part.old, Part.new, Op.resize]
        · simp [Part.edits]
      | delete os => exact ⟨[.delete os], [], rfl, by simp⟩
      | insert ns => exact ⟨[.insert ns], [], rfl, by simp⟩
      | replace os ns => exact ⟨[.replace os ns], [], rfl, by simp⟩
    | cons q ps =>
      obtain ⟨ps', ls, htrim, hedits⟩ := ih (i + p.old.length) (j + p.new.length)
      refine ⟨p :: ps', ls, ?_, ?_⟩
      · rw [opsAt, opsAt, trimBack, ← opsAt, htrim, opsAt]
      · rw [editsOf_cons, List.append_assoc, hedits, editsOf_cons p]

/-! ## Grouping -/

/-- The last group is left out when it holds nothing or kept lines only. -/
theorem groupFrom_nil (n : Nat) (g : List Op) :
    groupFrom n g.reverse [] = [g] ∧ g ≠ [] ∨
      groupFrom n g.reverse [] = [] ∧ (g = [] ∨ ∃ op, g = [op] ∧ op.kind = .keep) := by
  cases hg : g.reverse with
  | nil => exact .inr ⟨rfl, .inl (by simpa using hg)⟩
  | cons op rest =>
    obtain rfl : g = rest.reverse ++ [op] := by
      rw [← List.reverse_reverse g, hg, List.reverse_cons]
    cases rest with
    | nil =>
      by_cases hop : op.kind = .keep
      · exact .inr ⟨by simp [groupFrom, hop], .inr ⟨op, rfl, hop⟩⟩
      · exact .inl ⟨by simp [groupFrom, hop], by simp⟩
    | cons op' rest => exact .inl ⟨by simp [groupFrom], by simp⟩

/-- The first lines, the lines in the middle and the last lines of a long kept part. -/
theorem exists_context {n : Nat} {ls : List FileLine} (h : 2 * n < ls.length) :
    ∃ front middle back : List FileLine, ls = front ++ middle ++ back ∧ front.length = n ∧
      back.length = n := by
  refine ⟨ls.take n, (ls.drop n).take (ls.length - 2 * n), ls.drop (ls.length - n), ?_, ?_, ?_⟩
  · have hdrop : ls.length - n = n + (ls.length - 2 * n) := by omega
    rw [hdrop, ← List.drop_drop, List.append_assoc, List.take_append_drop, List.take_append_drop]
  · rw [List.length_take]
    omega
  · rw [List.length_drop]
    omega

/-- A long kept part ends the group with its first lines, and its last lines start the next one. -/
theorem groupFrom_long (group ps : List Part) (i j : Nat) {front middle back : List FileLine}
    (hlength : front.length = back.length) (hmiddle : middle ≠ []) :
    groupFrom back.length (opsAt i j group).reverse
        (opsAt (i + (oldOf group).length) (j + (newOf group).length)
          (.keep (front ++ middle ++ back) :: ps))
      = opsAt i j (group ++ [.keep front]) ::
        groupFrom back.length
          (opsAt (i + (oldOf (group ++ [.keep front])).length + middle.length)
            (j + (newOf (group ++ [.keep front])).length + middle.length) [.keep back]).reverse
          (opsAt (i + (oldOf (group ++ [.keep front])).length + middle.length
              + (oldOf [.keep back]).length)
            (j + (newOf (group ++ [.keep front])).length + middle.length
              + (newOf [.keep back]).length) ps) := by
  have hpos := List.length_pos_iff.2 hmiddle
  have hcut : 2 * back.length < back.length + (back.length + middle.length) := by omega
  have hcomm : middle.length + back.length = back.length + middle.length := by omega
  have hback : back.length + (back.length + middle.length) - (back.length + middle.length)
      = back.length := by omega
  simp [opsAt, groupFrom, Part.op, Part.kind, Part.old, Part.new, Op.move, Op.resize, opsAt_append,
    hcut, hcomm, hback, hlength, Nat.add_assoc]

theorem covers_groupFrom (n : Nat) (ps group : List Part) (i j : Nat) :
    Covers i j
      (groupFrom n (opsAt i j group).reverse
        (opsAt (i + (oldOf group).length) (j + (newOf group).length) ps))
      (editsOf (group ++ ps)) := by
  -- the group so far is carried along as parts, last operation first
  induction ps generalizing group i j with
  | nil =>
    rw [List.append_nil, opsAt]
    -- at the end the group is put out, unless it only keeps lines
    rcases groupFrom_nil n (opsAt i j group) with ⟨hgroup, hne⟩ | ⟨hgroup, hkept⟩
    · rw [hgroup]
      have hparts : group ≠ [] := by
        rintro rfl
        exact hne rfl
      simpa using Covers.group hparts (Covers.rest _ _ [])
    · rw [hgroup]
      cases group with
      | nil => exact .rest i j []
      | cons p group =>
        cases group with
        | nil =>
          obtain ⟨op, hop, hkeep⟩ : ∃ op, opsAt i j [p] = [op] ∧ op.kind = .keep := by
            simpa [opsAt] using hkept
          obtain rfl : p.op i j = op := by simpa [opsAt] using hop
          cases p with
          | keep ls => simpa [Part.edits] using Covers.rest i j ls
          | delete os => cases hkeep
          | insert ns => cases hkeep
          | replace os ns => cases hkeep
        | cons q group => simp [opsAt] at hkept
  | cons p ps ih =>
    by_cases hlong : p.kind = .keep ∧ 2 * n < p.old.length
    · obtain ⟨hkeep, hlength⟩ := hlong
      cases p with
      | keep ls =>
        -- the middle is a gap: the group before it is put out, and a new one starts behind it
        obtain ⟨front, middle, back, rfl, hfront, rfl⟩ := exists_context hlength
        have hmiddle : middle ≠ [] := by
          rintro rfl
          simp only [Part.old, List.append_nil, List.length_append] at hlength
          omega
        have hedits : editsOf (group ++ .keep (front ++ middle ++ back) :: ps)
            = editsOf (group ++ [.keep front])
              ++ (middle.map .keep ++ editsOf ([.keep back] ++ ps)) := by
          simp [Part.edits]
        rw [groupFrom_long group ps i j hfront hmiddle, hedits]
        exact .group (by simp) (.gap middle (ih [.keep back] _ _))
      | delete os => cases hkeep
      | insert ns => cases hkeep
      | replace os ns => cases hkeep
    -- any other part joins the group
    · have hcond : (decide (p.kind = .keep) && decide (2 * n < p.old.length)) = false := by
        simpa using hlong
      have hih := ih (group ++ [p]) i j
      rw [List.append_assoc, List.singleton_append] at hih
      simpa [opsAt, groupFrom, Part.op, hcond, opsAt_append, Nat.add_assoc] using hih

/-- The groups of a script cover its edits. -/
theorem covers_groups (n : Nat) (ps : List Part) :
    Covers 0 0 (groups n (opsAt 0 0 ps)) (editsOf ps) := by
  -- what is trimmed at the two ends is kept lines, before the first group and after the last one
  obtain ⟨before, ps₁, hfront, hedits₁⟩ := exists_trimFront n 0 0 ps
  obtain ⟨ps₂, after, hback, hedits₂⟩ :=
    exists_trimBack n (0 + before.length) (0 + before.length) ps₁
  have hcovers := covers_groupFrom n ps₂ [] (0 + before.length) (0 + before.length)
  rw [groups, hfront, hback, ← hedits₁, ← hedits₂]
  exact .gap before (.append_rest hcovers after)

/-! ## The first group -/

/-- Operations that show where they stand: the first one is at the start of the old sequence or
keeps lines, and one of them is about old lines. -/
structure IsAnchored (ops : List Op) : Prop where
  head_keeps : ∀ op ∈ ops.head?, op.old ≠ 0 → op.kind = .keep ∧ op.oldLength ≠ 0
  shows_old : ∃ op ∈ ops, op.oldLength ≠ 0

theorem Op.resize_kind (f : Nat → Nat) (op : Op) : (op.resize f).kind = op.kind := by
  obtain ⟨kind, i, m, j, n⟩ := op
  cases kind <;> rfl

theorem Op.resize_old (f : Nat → Nat) (op : Op) : (op.resize f).old = op.old := by
  obtain ⟨kind, i, m, j, n⟩ := op
  cases kind <;> rfl

theorem Op.resize_oldLength {f : Nat → Nat} {op : Op} (h : op.kind = .keep) :
    (op.resize f).oldLength = f op.oldLength := by
  obtain ⟨kind, i, m, j, n⟩ := op
  cases h
  rfl

/-- Each operation is that of a part. -/
theorem exists_of_mem_opsAt {ps : List Part} {i j : Nat} {op : Op} (h : op ∈ opsAt i j ps) :
    ∃ p ∈ ps, ∃ i' j', op = p.op i' j' := by
  induction ps generalizing i j with
  | nil => cases h
  | cons p ps ih =>
    rcases List.mem_cons.1 h with rfl | h
    · exact ⟨p, List.mem_cons_self .., i, j, rfl⟩
    · obtain ⟨q, hq, hop⟩ := ih h
      exact ⟨q, List.mem_cons_of_mem _ hq, hop⟩

/-- Old lines stand in an operation. -/
theorem exists_oldLength_ne {ps : List Part} (h : oldOf ps ≠ []) (i j : Nat) :
    ∃ op ∈ opsAt i j ps, op.oldLength ≠ 0 := by
  induction ps generalizing i j with
  | nil => exact absurd rfl h
  | cons p ps ih =>
    by_cases hp : p.old = []
    · have hrest : oldOf ps ≠ [] := by
        rwa [oldOf_cons, hp, List.nil_append] at h
      obtain ⟨op, hop, hne⟩ := ih hrest (i + p.old.length) (j + p.new.length)
      exact ⟨op, List.mem_cons_of_mem _ hop, hne⟩
    · exact ⟨p.op i j, List.mem_cons_self .., Nat.ne_of_gt (List.length_pos_iff.2 hp)⟩

section Anchored

variable {n : Nat} (hn : n ≠ 0)

include hn

/-- Trimming leaves lines of a kept part at the front. -/
theorem isAnchored_trimFront {ops : List Op} (hstart : ∀ op ∈ ops.head?, op.old = 0)
    (hold : ∃ op ∈ ops, op.oldLength ≠ 0) (hkeep : ∀ op ∈ ops, op.kind = .keep → op.oldLength ≠ 0) :
    IsAnchored (trimFront n ops) := by
  cases ops with
  | nil =>
    obtain ⟨op, hop, -⟩ := hold
    cases hop
  | cons op ops =>
    rw [trimFront]
    by_cases hop : op.kind = .keep
    · rw [if_pos hop]
      have hlength : op.oldLength - (op.oldLength - n) ≠ 0 := by
        have hne := hkeep op (List.mem_cons_self ..) hop
        omega
      have hresized : ((op.move (· + (op.oldLength - n))).resize (· - (op.oldLength - n))).oldLength
          = op.oldLength - (op.oldLength - n) := Op.resize_oldLength hop
      refine ⟨fun first hfirst _ => ?_, _, List.mem_cons_self .., hresized ▸ hlength⟩
      obtain rfl := Option.some_inj.1 hfirst
      exact ⟨(Op.resize_kind _ _).trans hop, hresized ▸ hlength⟩
    · rw [if_neg hop]
      refine ⟨fun first hfirst hne => ?_, hold⟩
      exact absurd (hstart first hfirst) hne

theorem IsAnchored.trimBack {ops : List Op} (h : IsAnchored ops) :
    IsAnchored (trimBack n ops) := by
  -- only the last operation is trimmed, and a kept line is left of it
  have hlength : ∀ {op : Op}, op.kind = .keep → op.oldLength ≠ 0 →
      (op.resize (min n)).oldLength ≠ 0 := by
    intro op hop hne
    rw [Op.resize_oldLength hop]
    omega
  have hold : ∀ {ops : List Op}, (∃ op ∈ ops, op.oldLength ≠ 0) →
      ∃ op ∈ Diff.trimBack n ops, op.oldLength ≠ 0 := by
    intro ops hops
    induction ops with
    | nil => exact hops
    | cons op ops ih =>
      cases ops with
      | nil =>
        obtain ⟨_, hmem, hne⟩ := hops
        obtain rfl := List.mem_singleton.1 hmem
        rw [Diff.trimBack]
        split
        · rename_i hop
          exact ⟨_, List.mem_cons_self .., hlength hop hne⟩
        · exact ⟨_, List.mem_cons_self .., hne⟩
      | cons next ops =>
        rw [Diff.trimBack]
        obtain ⟨old, hmem, hne⟩ := hops
        rcases List.mem_cons.1 hmem with rfl | hmem
        · exact ⟨_, List.mem_cons_self .., hne⟩
        · obtain ⟨old', hmem', hne'⟩ := ih ⟨old, hmem, hne⟩
          exact ⟨old', List.mem_cons_of_mem _ hmem', hne'⟩
  refine ⟨?_, hold h.shows_old⟩
  obtain _ | ⟨op, _ | ⟨next, ops⟩⟩ := ops
  · exact h.head_keeps
  · rw [Diff.trimBack]
    split
    · rename_i hop
      intro first hfirst hne
      obtain rfl := Option.some_inj.1 hfirst
      rw [Op.resize_old] at hne
      exact ⟨(Op.resize_kind _ _).trans hop, hlength hop (h.head_keeps op rfl hne).2⟩
    · exact h.head_keeps
  · exact h.head_keeps

/-- The first group of operations with those of `group` in front. -/
theorem IsAnchored.groupFrom {group ops : List Op} (h : IsAnchored (group.reverse ++ ops)) :
    ∀ g ∈ (groupFrom n group ops).head?, IsAnchored g := by
  induction ops generalizing group with
  | nil =>
    intro g hg
    rw [List.append_nil] at h
    have hgroup : g = group.reverse := by
      unfold Diff.groupFrom at hg
      split at hg
      · cases hg
      · split at hg
        · cases hg
        · exact (Option.some_inj.1 hg).symm
      · exact (Option.some_inj.1 hg).symm
    exact hgroup ▸ h
  | cons op ops ih =>
    intro g hg
    rw [Diff.groupFrom] at hg
    split at hg
    · -- the first lines of a long kept part end the group
      rename_i hcut
      have hop : op.kind = .keep := by
        simp only [Bool.and_eq_true, decide_eq_true_eq] at hcut
        exact hcut.1
      have hlength : (op.resize fun _ => n).oldLength ≠ 0 := by rwa [Op.resize_oldLength hop]
      obtain rfl := Option.some_inj.1 hg
      rw [List.reverse_cons]
      refine ⟨fun first hfirst hne => ?_, _, List.mem_append_right _ (List.mem_singleton.2 rfl),
        hlength⟩
      cases hgroup : group.reverse with
      | nil =>
        rw [hgroup] at hfirst
        obtain rfl := Option.some_inj.1 hfirst
        exact ⟨(Op.resize_kind _ _).trans hop, hlength⟩
      | cons first' rest =>
        rw [hgroup] at hfirst h
        exact h.head_keeps first hfirst hne
    · have hmoved : IsAnchored ((op :: group).reverse ++ ops) := by
        rwa [List.reverse_cons, List.append_assoc, List.singleton_append]
      exact ih hmoved g hg

/-- The first group of the operations of parts shows where it stands, when there are old lines. -/
theorem isAnchored_groups {ps : List Part} (hproper : ∀ p ∈ ps, p.IsProper) (hold : oldOf ps ≠ []) :
    ∀ g ∈ (groups n (opsAt 0 0 ps)).head?, IsAnchored g := by
  have hfront : IsAnchored (trimFront n (opsAt 0 0 ps)) := by
    apply isAnchored_trimFront hn
    · cases ps with
      | nil => exact fun op hop => by cases hop
      | cons p ps => exact fun op hop => by cases hop; rfl
    · exact exists_oldLength_ne hold 0 0
    · intro op hop hkind
      obtain ⟨p, hp, i, j, rfl⟩ := exists_of_mem_opsAt hop
      cases p with
      | keep ls => exact Nat.ne_of_gt (List.length_pos_iff.2 (hproper _ hp))
      | delete os => cases hkind
      | insert ns => cases hkind
      | replace os ns => cases hkind
  have hops : IsAnchored ([].reverse ++ trimBack n (trimFront n (opsAt 0 0 ps))) :=
    hfront.trimBack hn
  exact hops.groupFrom hn

end Anchored

end Diff

end Mend
