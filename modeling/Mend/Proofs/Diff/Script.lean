import Mathlib.Data.List.Chain
import Mend.Diff.Unified
import Mend.Proofs.Revision.Basic

/-!
# Edit scripts and their groups

A line difference is a list of operations that lead from the start of two sequences to their ends,
keep equal lines only, and delete before they insert (`Diff.IsScript`). Such a list is a list of
parts, which hold the lines that they are about (`Diff.Part`, `Diff.exists_parts`).

Grouping cuts long kept parts: a few of their lines stay at the ends of groups as context, and the
rest falls between the groups. `Diff.Covers` says that groups and what is left between them make up
the edits of the script, and `Diff.covers_groups` that grouping gives such groups.
-/

namespace Mend

namespace Diff

open Revision

/-! ## Scripts -/

/-- An operation that says what its kind promises, on two sequences. -/
def Op.IsSound (a b : Array Text) (op : Op) : Prop :=
  match op.kind with
  | .keep => op.oldLength = op.newLength ∧ op.oldLength ≠ 0 ∧
      a.extract op.old op.oldEnd = b.extract op.new op.newEnd
  | .delete => op.newLength = 0 ∧ op.oldLength ≠ 0
  | .insert => op.oldLength = 0 ∧ op.newLength ≠ 0
  | .replace => op.oldLength ≠ 0 ∧ op.newLength ≠ 0

/-- Operations in order from two positions to the ends of both sequences, without gaps. -/
def Partitions (a b : Array Text) : Nat → Nat → List Op → Prop
  | i, j, [] => i = a.size ∧ j = b.size
  | i, j, op :: ops =>
    op.old = i ∧ op.new = j ∧ op.IsSound a b ∧ Partitions a b op.oldEnd op.newEnd ops

/-- Two operations next to each other of which the first inserts and the second deletes. -/
def Op.insertsThenDeletes (p q : Op) : Bool :=
  p.kind ≠ .keep && q.kind ≠ .keep && p.newLength ≠ 0 && q.oldLength ≠ 0

/-- An edit script in order that partitions both sequences, with deletions before insertions in
each change. -/
structure IsScript (a b : Array Text) (ops : List Op) : Prop where
  partitions : Partitions a b 0 0 ops
  deletes_first : ops.IsChain fun p q => p.insertsThenDeletes q = false

instance (a b : Array Text) (op : Op) : Decidable (op.IsSound a b) := by
  unfold Op.IsSound
  cases op.kind <;> infer_instance

instance decidablePartitions (a b : Array Text) (i j : Nat) (ops : List Op) :
    Decidable (Partitions a b i j ops) :=
  match ops with
  | [] => inferInstanceAs (Decidable (_ ∧ _))
  | op :: ops =>
    let _ := decidablePartitions a b op.oldEnd op.newEnd ops
    inferInstanceAs (Decidable (_ ∧ _ ∧ _ ∧ _))

instance (a b : Array Text) (ops : List Op) : Decidable (IsScript a b ops) :=
  decidable_of_iff
    (Partitions a b 0 0 ops ∧ ops.IsChain fun p q => p.insertsThenDeletes q = false)
    ⟨fun ⟨partitions, first⟩ => ⟨partitions, first⟩, fun h => ⟨h.partitions, h.deletes_first⟩⟩

/-! ## Parts -/

/-- A part of an edit script with its lines. -/
inductive Part where
  | keep (ls : List FileLine)
  | delete (os : List FileLine)
  | insert (ns : List FileLine)
  | replace (os ns : List FileLine)

namespace Part

/-- The lines of the old side. -/
def old : Part → List FileLine
  | keep ls => ls
  | delete os | replace os _ => os
  | insert _ => []

/-- The lines of the new side. -/
def new : Part → List FileLine
  | keep ls => ls
  | insert ns | replace _ ns => ns
  | delete _ => []

/-- The edits, line by line. -/
def edits : Part → List Edit
  | keep ls => ls.map .keep
  | delete os => os.map .remove
  | insert ns => ns.map .add
  | replace os ns => os.map .remove ++ ns.map .add

/-- A part that is about at least one line of each side that it changes. -/
def IsProper : Part → Prop
  | keep ls => ls ≠ []
  | delete os => os ≠ []
  | insert ns => ns ≠ []
  | replace os ns => os ≠ [] ∧ ns ≠ []

/-- What the operation of a part does. -/
def kind : Part → OpKind
  | keep _ => .keep
  | delete _ => .delete
  | insert _ => .insert
  | replace .. => .replace

/-- The operation of a part that stands at two positions. -/
def op (i j : Nat) (p : Part) : Op := ⟨p.kind, i, p.old.length, j, p.new.length⟩

theorem isProper_of_isSound {a b : Array Text} {i j : Nat} {p : Part}
    (h : (p.op i j).IsSound a b) : p.IsProper := by
  cases p with
  | keep ls => exact List.ne_nil_of_length_pos (Nat.pos_of_ne_zero h.2.1)
  | delete os => exact List.ne_nil_of_length_pos (Nat.pos_of_ne_zero h.2)
  | insert ns => exact List.ne_nil_of_length_pos (Nat.pos_of_ne_zero h.2)
  | replace os ns =>
    exact ⟨List.ne_nil_of_length_pos (Nat.pos_of_ne_zero h.1),
      List.ne_nil_of_length_pos (Nat.pos_of_ne_zero h.2)⟩

theorem IsProper.edits_ne_nil {p : Part} (h : p.IsProper) : p.edits ≠ [] := by
  cases p with
  | keep ls => simpa [edits, IsProper] using h
  | delete os => simpa [edits, IsProper] using h
  | insert ns => simpa [edits, IsProper] using h
  | replace os ns => simp [edits, h.1]

/-- A part removes its lines before it adds lines. -/
theorem edits_isChain (p : Part) : p.edits.IsChain fun a b => a.addsThenRemoves b = false := by
  have hsame : ∀ ls : List FileLine, ls.Pairwise fun _ _ => True :=
    fun ls => List.pairwise_of_forall fun _ _ => trivial
  apply List.Pairwise.isChain
  cases p <;>
    simp [edits, List.pairwise_append, List.pairwise_map, Edit.addsThenRemoves, hsame]

/-- A part that is not kept removes its old lines and adds its new lines. -/
theorem edits_eq_append {p : Part} (h : p.kind ≠ .keep) :
    p.edits = p.old.map .remove ++ p.new.map .add := by
  cases p with
  | keep ls => exact absurd rfl h
  | delete os => simp [edits, old, new]
  | insert ns => rfl
  | replace os ns => rfl

/-- A part that adds a line changes the new side. -/
theorem kind_of_add_mem {p : Part} {l : FileLine} (h : Edit.add l ∈ p.edits) :
    p.kind ≠ .keep ∧ p.new.length ≠ 0 := by
  cases p <;> simp [edits, kind, new] at h ⊢ <;> exact List.ne_nil_of_mem h

/-- A part that removes a line changes the old side. -/
theorem kind_of_remove_mem {p : Part} {l : FileLine} (h : Edit.remove l ∈ p.edits) :
    p.kind ≠ .keep ∧ p.old.length ≠ 0 := by
  cases p <;> simp [edits, kind, old] at h ⊢ <;> exact List.ne_nil_of_mem h

theorem edits_old (p : Part) : p.edits.flatMap Edit.old = p.old := by
  cases p <;> simp [edits, old, Edit.old, List.flatMap_map]

theorem edits_new (p : Part) : p.edits.flatMap Edit.new = p.new := by
  cases p <;> simp [edits, new, Edit.new, List.flatMap_map]

end Part

/-- The lines of the old side of parts. -/
def oldOf (ps : List Part) : List FileLine := ps.flatMap Part.old

/-- The lines of the new side of parts. -/
def newOf (ps : List Part) : List FileLine := ps.flatMap Part.new

/-- The edits of parts. -/
def editsOf (ps : List Part) : List Edit := ps.flatMap Part.edits

/-- The operations of parts, of which the first one stands at two positions. -/
def opsAt : Nat → Nat → List Part → List Op
  | _, _, [] => []
  | i, j, p :: ps => p.op i j :: opsAt (i + p.old.length) (j + p.new.length) ps

section Parts

@[simp]
theorem oldOf_nil : oldOf [] = [] := rfl

@[simp]
theorem newOf_nil : newOf [] = [] := rfl

@[simp]
theorem editsOf_nil : editsOf [] = [] := rfl

@[simp]
theorem oldOf_cons (p : Part) (ps : List Part) : oldOf (p :: ps) = p.old ++ oldOf ps := rfl

@[simp]
theorem newOf_cons (p : Part) (ps : List Part) : newOf (p :: ps) = p.new ++ newOf ps := rfl

@[simp]
theorem editsOf_cons (p : Part) (ps : List Part) : editsOf (p :: ps) = p.edits ++ editsOf ps := rfl

@[simp]
theorem oldOf_append (ps qs : List Part) : oldOf (ps ++ qs) = oldOf ps ++ oldOf qs := by
  simp [oldOf]

@[simp]
theorem newOf_append (ps qs : List Part) : newOf (ps ++ qs) = newOf ps ++ newOf qs := by
  simp [newOf]

@[simp]
theorem editsOf_append (ps qs : List Part) : editsOf (ps ++ qs) = editsOf ps ++ editsOf qs := by
  simp [editsOf]

theorem opsAt_append (i j : Nat) (ps qs : List Part) :
    opsAt i j (ps ++ qs)
      = opsAt i j ps ++ opsAt (i + (oldOf ps).length) (j + (newOf ps).length) qs := by
  induction ps generalizing i j with
  | nil => simp [opsAt]
  | cons p ps ih => simp [opsAt, ih, Nat.add_assoc]

theorem editsOf_old (ps : List Part) : (editsOf ps).flatMap Edit.old = oldOf ps := by
  induction ps with
  | nil => rfl
  | cons p ps ih => simp [ih, Part.edits_old]

theorem editsOf_new (ps : List Part) : (editsOf ps).flatMap Edit.new = newOf ps := by
  induction ps with
  | nil => rfl
  | cons p ps ih => simp [ih, Part.edits_new]

end Parts

/-- Operations that delete before they insert are edits that remove before they add. -/
theorem editsOf_isChain {i j : Nat} {ps : List Part} (hproper : ∀ p ∈ ps, p.IsProper)
    (h : (opsAt i j ps).IsChain fun p q => p.insertsThenDeletes q = false) :
    (editsOf ps).IsChain fun a b => a.addsThenRemoves b = false := by
  induction ps generalizing i j with
  | nil => exact List.IsChain.nil
  | cons p ps ih =>
    have hrest := ih (fun q hq => hproper q (List.mem_cons_of_mem _ hq)) h.tail
    rw [editsOf_cons]
    -- inside a part the order is right, so only the turn to the next part is left
    refine List.isChain_append.2 ⟨p.edits_isChain, hrest, fun a ha b hb => ?_⟩
    rw [Bool.eq_false_iff]
    intro hturn
    obtain ⟨l, rfl⟩ : ∃ l, a = .add l := by cases a <;> simp_all [Edit.addsThenRemoves]
    obtain ⟨m, rfl⟩ : ∃ m, b = .remove m := by cases b <;> simp_all [Edit.addsThenRemoves]
    cases ps with
    | nil => cases hb
    | cons q ps =>
      -- the next part holds the removed line, since it is not empty
      have hq := (hproper q (by simp)).edits_ne_nil
      have hmem : Edit.remove m ∈ q.edits := by
        rw [editsOf_cons, List.head?_append_of_ne_nil _ hq] at hb
        exact List.mem_of_head? hb
      obtain ⟨hpkind, hpnew⟩ := Part.kind_of_add_mem (List.mem_of_getLast? ha)
      obtain ⟨hqkind, hqold⟩ := Part.kind_of_remove_mem hmem
      -- the two operations would insert and then delete
      have hchain := (List.isChain_cons_cons.1 h).1
      simp [Op.insertsThenDeletes, Part.op, hpkind, hpnew, hqkind, hqold] at hchain

/-! ## The parts of a script -/

/-- The line that stands as a text in a file. -/
def lineOf (t : Text) : FileLine := ⟨Text.dropSuffix [Text.lf] t, t.getLast? = some Text.lf⟩

theorem lineOf_written {l : FileLine} (h : Text.lf ∉ l.text) : lineOf l.written = l := by
  obtain ⟨text, ended⟩ := l
  cases ended with
  | true => simp [lineOf, FileLine.written]
  | false =>
    have hlast : text.getLast? ≠ some Text.lf := fun heq => h (List.mem_of_getLast? heq)
    have hsuffix : ¬ [Text.lf] <:+ text := by
      rintro ⟨front, rfl⟩
      simp at hlast
    simp [lineOf, FileLine.written, Text.dropSuffix_eq_self hsuffix, hlast]

/-- Lines that are written in the same way are the same lines. -/
theorem eq_of_map_written {ls ms : List FileLine} (hl : ∀ l ∈ ls, Text.lf ∉ l.text)
    (hm : ∀ m ∈ ms, Text.lf ∉ m.text)
    (h : ls.map FileLine.written = ms.map FileLine.written) : ls = ms := by
  -- `lineOf` undoes writing, line by line
  have hback : ∀ {ns : List FileLine}, (∀ n ∈ ns, Text.lf ∉ n.text) →
      (ns.map FileLine.written).map lineOf = ns := by
    intro ns hn
    rw [List.map_map]
    calc ns.map (lineOf ∘ FileLine.written) = ns.map id :=
          List.map_congr_left fun n hmem => lineOf_written (hn n hmem)
      _ = ns := List.map_id ns
  rw [← hback hl, h, hback hm]

theorem Partitions.le_size {a b : Array Text} {i j : Nat} {ops : List Op}
    (h : Partitions a b i j ops) : i ≤ a.size ∧ j ≤ b.size := by
  induction ops generalizing i j with
  | nil => exact ⟨Nat.le_of_eq h.1, Nat.le_of_eq h.2⟩
  | cons op ops ih =>
    obtain ⟨rfl, rfl, -, hrest⟩ := h
    obtain ⟨hold, hnew⟩ := ih hrest
    simp only [Op.oldEnd, Op.newEnd] at hold hnew
    omega

/-- The lines of a file as they are written. -/
def writtenLines (ls : List FileLine) : Array Text := (ls.map FileLine.written).toArray

theorem extract_writtenLines (ls : List FileLine) (i n : Nat) :
    (writtenLines ls).extract i (i + n) = writtenLines ((ls.drop i).take n) := by
  simp [writtenLines, List.extract_toArray, List.extract_eq_take_drop, List.map_take, List.map_drop]

variable {la lb : List FileLine}

/-- The part of an operation. -/
theorem exists_part (ha : ∀ l ∈ la, Text.lf ∉ l.text) (hb : ∀ l ∈ lb, Text.lf ∉ l.text) {op : Op}
    (h : op.IsSound (writtenLines la) (writtenLines lb)) (hold : op.oldEnd ≤ la.length)
    (hnew : op.newEnd ≤ lb.length) :
    ∃ p : Part, op = p.op op.old op.new ∧ p.old = (la.drop op.old).take op.oldLength ∧
      p.new = (lb.drop op.new).take op.newLength := by
  have holdLength : ((la.drop op.old).take op.oldLength).length = op.oldLength := by
    rw [List.length_take, List.length_drop]
    simp only [Op.oldEnd] at hold
    omega
  have hnewLength : ((lb.drop op.new).take op.newLength).length = op.newLength := by
    rw [List.length_take, List.length_drop]
    simp only [Op.newEnd] at hnew
    omega
  obtain ⟨kind, i, m, j, n⟩ := op
  cases kind with
  | keep =>
    obtain ⟨hlength, -, hequal⟩ := h
    simp only [Op.oldEnd, Op.newEnd] at hlength hequal
    -- the two ranges are written alike, so they hold the same lines
    subst hlength
    rw [extract_writtenLines, extract_writtenLines] at hequal
    have hlines : (la.drop i).take m = (lb.drop j).take m := by
      apply eq_of_map_written
      · exact fun l hl => ha l (List.mem_of_mem_drop (List.mem_of_mem_take hl))
      · exact fun l hl => hb l (List.mem_of_mem_drop (List.mem_of_mem_take hl))
      · simpa [writtenLines] using hequal
    refine ⟨.keep ((la.drop i).take m), ?_, rfl, hlines⟩
    simp only [Part.op, Part.kind, Part.old, Part.new, holdLength]
  | delete =>
    obtain rfl : n = 0 := h.1
    refine ⟨.delete ((la.drop i).take m), ?_, rfl, by simp [Part.new]⟩
    simp only [Part.op, Part.kind, Part.old, Part.new, holdLength, List.length_nil]
  | insert =>
    obtain rfl : m = 0 := h.1
    refine ⟨.insert ((lb.drop j).take n), ?_, by simp [Part.old], rfl⟩
    simp only [Part.op, Part.kind, Part.old, Part.new, hnewLength, List.length_nil]
  | replace =>
    refine ⟨.replace ((la.drop i).take m) ((lb.drop j).take n), ?_, rfl, rfl⟩
    simp only [Part.op, Part.kind, Part.old, Part.new, holdLength, hnewLength]

/-- A partition of the lines of two files has parts that hold their lines. -/
theorem exists_parts (ha : ∀ l ∈ la, Text.lf ∉ l.text) (hb : ∀ l ∈ lb, Text.lf ∉ l.text) {i j : Nat}
    {ops : List Op} (h : Partitions (writtenLines la) (writtenLines lb) i j ops) :
    ∃ ps, ops = opsAt i j ps ∧ oldOf ps = la.drop i ∧ newOf ps = lb.drop j ∧
      ∀ p ∈ ps, p.IsProper := by
  induction ops generalizing i j with
  | nil =>
    obtain ⟨rfl, rfl⟩ := h
    exact ⟨[], rfl, by simp [writtenLines], by simp [writtenLines], by simp⟩
  | cons op ops ih =>
    obtain ⟨rfl, rfl, hsound, hrest⟩ := h
    obtain ⟨hold, hnew⟩ := hrest.le_size
    simp only [writtenLines, List.size_toArray, List.length_map] at hold hnew
    obtain ⟨p, hp, hpold, hpnew⟩ := exists_part ha hb hsound hold hnew
    obtain ⟨ps, rfl, hpsold, hpsnew, hproper⟩ := ih hrest
    have holdLength : p.old.length = op.oldLength := congrArg Op.oldLength hp.symm
    have hnewLength : p.new.length = op.newLength := congrArg Op.newLength hp.symm
    -- the part stands where the operation does, and the others stand behind it
    refine ⟨p :: ps, ?_, ?_, ?_, ?_⟩
    · rw [opsAt, holdLength, hnewLength, ← hp]
      rfl
    · rw [oldOf_cons, hpold, hpsold, Op.oldEnd, ← List.drop_drop, List.take_append_drop]
    · rw [newOf_cons, hpnew, hpsnew, Op.newEnd, ← List.drop_drop, List.take_append_drop]
    · rw [hp] at hsound
      exact List.forall_mem_cons.2 ⟨Part.isProper_of_isSound hsound, hproper⟩

end Diff

end Mend
