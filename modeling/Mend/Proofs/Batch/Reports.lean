import Mend.Batch.Report
import Mend.Proofs.Batch.RecordFiles
import Mend.Proofs.Text.Order
import Mathlib.Data.List.Induction

/-!
# What a report says of records

The counts of a report are kept in the order of names, one for each name (`Report.byStatus_sorted`),
so each status has the number of its records and the counts add up to all of them. None of this
depends on the order of the records (`Report.reconciles_of_perm`).
-/

namespace Mend

/-! ## Counts -/

namespace Report

/-- Counts stand in the order of their names. -/
def Sorted (counts : List (Text × Nat)) : Prop :=
  counts.Pairwise fun a b => Text.le b.1 a.1 = false

variable {counts : List (Text × Nat)} {name other : Text}

theorem mem_countName {e : Text × Nat} (h : e ∈ countName name counts) :
    e.1 = name ∨ ∃ c ∈ counts, c.1 = e.1 := by
  induction counts with
  | nil =>
    rw [countName, List.mem_singleton] at h
    exact .inl (by rw [h])
  | cons c rest ih =>
    obtain ⟨first, n⟩ := c
    rw [countName] at h
    split at h
    · rename_i heq
      rcases List.mem_cons.1 h with rfl | hrest
      · exact .inl heq
      · exact .inr ⟨e, List.mem_cons_of_mem _ hrest, rfl⟩
    split at h
    · rcases List.mem_cons.1 h with rfl | hrest
      · exact .inl rfl
      · exact .inr ⟨e, hrest, rfl⟩
    · rcases List.mem_cons.1 h with rfl | hrest
      · exact .inr ⟨_, List.mem_cons_self, rfl⟩
      · exact (ih hrest).imp_right fun ⟨c, hc, heq⟩ => ⟨c, List.mem_cons_of_mem _ hc, heq⟩

/-- A name that comes before all counts is not counted yet. -/
theorem Sorted.lookup_of_le {n : Nat} (h : Sorted ((other, n) :: counts)) (hne : other ≠ name)
    (hle : Text.le name other = true) : ((other, n) :: counts).lookup name = none := by
  rw [List.lookup_eq_none_iff]
  intro e he
  rcases List.mem_cons.1 he with rfl | hrest
  · simpa using hne.symm
  · have hlt := (List.pairwise_cons.1 h).1 e hrest
    rw [bne_iff_ne]
    rintro rfl
    exact Bool.false_ne_true (hlt.symm.trans hle)

theorem Sorted.countName (h : Sorted counts) (name : Text) : Sorted (countName name counts) := by
  induction counts with
  | nil => exact List.pairwise_singleton ..
  | cons c rest ih =>
    obtain ⟨other, n⟩ := c
    obtain ⟨hfirst, hrest⟩ := List.pairwise_cons.1 h
    rw [Report.countName]
    split
    · exact List.pairwise_cons.2 ⟨hfirst, hrest⟩
    rename_i hne
    split
    · rename_i hle
      refine List.pairwise_cons.2 ⟨fun e he => ?_, h⟩
      rw [← Bool.not_eq_true]
      intro hback
      rcases List.mem_cons.1 he with rfl | he
      · exact hne (Text.le_antisymm hback hle)
      · exact Bool.false_ne_true ((hfirst e he).symm.trans (Text.le_trans hback hle))
    · rename_i hlt
      refine List.pairwise_cons.2 ⟨fun e he => ?_, ih hrest⟩
      rcases mem_countName he with heq | ⟨c, hc, heq⟩
      · simpa [heq] using hlt
      · exact heq ▸ hfirst c hc

/-- Counting a name counts one more of it and of no other name. -/
theorem lookup_countName (h : Sorted counts) (name other : Text) :
    (countName name counts).lookup other =
      if other = name then some ((counts.lookup other).getD 0 + 1) else counts.lookup other := by
  induction counts with
  | nil =>
    by_cases heq : other = name
    · simp [countName, heq]
    · rw [countName, lookup_cons_ne heq, if_neg heq]
  | cons c rest ih =>
    obtain ⟨first, n⟩ := c
    rw [countName]
    split
    · rename_i heq
      subst heq
      by_cases heq : other = first
      · simp [heq]
      · rw [lookup_cons_ne heq, lookup_cons_ne heq, if_neg heq]
    rename_i hne
    split
    · rename_i hle
      by_cases heq : other = name
      · subst heq
        rw [h.lookup_of_le hne hle]
        simp
      · rw [if_neg heq, lookup_cons_ne heq]
    · have hrest := ih (List.pairwise_cons.1 h).2
      by_cases heq : other = first
      · subst heq
        rw [if_neg hne]
        simp
      · rw [lookup_cons_ne heq, lookup_cons_ne heq, hrest]

theorem sum_countName (name : Text) (counts : List (Text × Nat)) :
    ((countName name counts).map Prod.snd).sum = (counts.map Prod.snd).sum + 1 := by
  induction counts with
  | nil => rfl
  | cons c rest ih =>
    obtain ⟨other, n⟩ := c
    rw [countName]
    split
    · simp only [List.map_cons, List.sum_cons]
      omega
    split
    · simp only [List.map_cons, List.sum_cons]
      omega
    · simp only [List.map_cons, List.sum_cons, ih]
      omega

/-- The counts of the statuses of records. -/
def countsOf (records : List TaskRecord) : List (Text × Nat) :=
  records.foldl (fun counts r => countName r.status.name counts) []

theorem countsOf_concat (records : List TaskRecord) (r : TaskRecord) :
    countsOf (records ++ [r]) = countName r.status.name (countsOf records) := by
  rw [countsOf, List.foldl_append]
  rfl

theorem sorted_countsOf (records : List TaskRecord) : Sorted (countsOf records) := by
  induction records using List.reverseRecOn with
  | nil => exact .nil
  | append_singleton records r ih =>
    rw [countsOf_concat]
    exact ih.countName _

theorem sum_countsOf (records : List TaskRecord) :
    ((countsOf records).map Prod.snd).sum = records.length := by
  induction records using List.reverseRecOn with
  | nil => rfl
  | append_singleton records r ih =>
    rw [countsOf_concat, sum_countName, ih, List.length_append, List.length_singleton]

/-- A number of records, or nothing for none. -/
def counted (n : Nat) : Option Nat := if n = 0 then none else some n

theorem lookup_countsOf (records : List TaskRecord) (s : TaskStatus) :
    (countsOf records).lookup s.name = counted (records.countP fun r => r.status = s) := by
  induction records using List.reverseRecOn with
  | nil => rfl
  | append_singleton records r ih =>
    have hname : s.name = r.status.name ↔ r.status = s :=
      ⟨fun h => (TaskStatus.name_inj.1 h).symm, fun h => by rw [h]⟩
    rw [countsOf_concat, lookup_countName (sorted_countsOf records), ih, List.countP_append,
      List.countP_singleton]
    by_cases heq : r.status = s
    · rw [if_pos (hname.2 heq), counted, counted]
      simp only [heq, decide_true, if_true]
      split
      · rename_i hzero
        simp [hzero]
      · simp
    · rw [if_neg (hname.not.2 heq)]
      simp [heq]

/-! ## Reports -/

/-- A report agrees with records. -/
structure Reconciles (report : Report) (records : List TaskRecord) : Prop where
  tasks : report.tasks = records.length
  /-- Each status has the number of its records, unless there are none. -/
  byStatus : ∀ s : TaskStatus, report.byStatus.lookup s.name
    = counted (records.countP fun r => r.status = s)
  /-- No name has two counts, and there are no others. -/
  sorted : Sorted report.byStatus
  sum_byStatus : (report.byStatus.map Prod.snd).sum = records.length
  filesWritten : report.filesWritten = (records.map fun r => r.filesWritten.length).sum
  averageTurns : report.averageTurns = if records.isEmpty then none else
    some ((records.map TaskRecord.turns).sum.toFloat / records.length.toFloat)

theorem foldl_add_eq_sum (f : TaskRecord → Nat) (records : List TaskRecord) :
    records.foldl (fun n r => n + f r) 0 = (records.map f).sum := by
  rw [List.sum_eq_foldl, List.foldl_map]

theorem reconciles_of_perm {records found : List TaskRecord} (h : found.Perm records) :
    (ofRecords found).Reconciles records where
  tasks := h.length_eq
  byStatus s := (lookup_countsOf found s).trans (by rw [h.countP_eq])
  sorted := sorted_countsOf found
  sum_byStatus := (sum_countsOf found).trans h.length_eq
  filesWritten := (foldl_add_eq_sum _ found).trans (h.map _).sum_nat
  averageTurns := by
    simp only [ofRecords]
    rw [h.isEmpty_eq, h.length_eq, foldl_add_eq_sum TaskRecord.turns, (h.map TaskRecord.turns).sum_nat]

/-! ## Reading a directory -/

/-- Directories that each have a record give these records and no warning. -/
theorem collect_of_load {dir : Text} {d : Disk} {entries : List (Text × DiskNode)}
    (h : ∀ e ∈ entries, e.2 = .dir ∧ ∃ r,
      TaskRecord.load (Path.join (Path.join dir e.1) "meta.json".toList) d = .ok r) :
    collect dir d entries = (entries.filterMap fun e =>
      (TaskRecord.load (Path.join (Path.join dir e.1) "meta.json".toList) d).toOption, []) := by
  induction entries with
  | nil => rfl
  | cons e rest ih =>
    obtain ⟨⟨hdir, r, hload⟩, hrest⟩ := List.forall_mem_cons.1 h
    obtain ⟨name, node⟩ := e
    obtain rfl : node = .dir := hdir
    rw [collect, ih hrest]
    dsimp only
    rw [hload, List.filterMap_cons]
    simp only [hload]
    rfl

end Report

end Mend
