import Mend.Proofs.Batch.Schedules

/-!
# The records of a batch

A session that fails is recorded as failed, and only a record that cannot be written is a failure of
its task (`Task.run_cases`). So the records of a batch whose workers have followed any schedule are
those of its tasks, in the order of the manifest, each with the outcome of its own session
(`Batch.ExactlyOnce`).
-/

namespace Mend

namespace Task

/-- What comes of the session of a task, and the disk after it. -/
def session (t : Task) (defaults : TaskDefaults) (resultsDir : Text) (d : Disk) :
    Except Failure Outcome × Disk :=
  (t.repair defaults (Path.join resultsDir t.id)).run d

/-- The record of a task that is run on a disk. -/
def recordOn (t : Task) (defaults : TaskDefaults) (stamp : BatchStamp) (resultsDir : Text)
    (d : Disk) : TaskRecord :=
  t.record stamp (t.promptHash d) (t.session defaults resultsDir d).1

/-- What comes of writing that record. -/
def saved (t : Task) (defaults : TaskDefaults) (stamp : BatchStamp) (resultsDir : Text)
    (d : Disk) : Except Failure Unit :=
  ((t.recordOn defaults stamp resultsDir d).save
    (Path.join (Path.join resultsDir t.id) "meta.json".toList)
    (t.session defaults resultsDir d).2).1

/-- A task has its record, whatever came of its session, or the record could not be written. -/
theorem run_fst (t : Task) (defaults : TaskDefaults) (stamp : BatchStamp) (resultsDir : Text)
    (d : Disk) : (t.run defaults stamp resultsDir d).1
      = (t.saved defaults stamp resultsDir d).map
          fun _ => t.recordOn defaults stamp resultsDir d := by
  unfold run saved recordOn session
  dsimp only
  generalize (t.repair defaults (Path.join resultsDir t.id)).run d = ended
  generalize TaskRecord.save _ _ _ = written
  obtain ⟨f | u, d'⟩ := written <;> rfl

/-- The record of a task whose session failed shows the failure. -/
theorem recordOn_of_error {t : Task} {defaults : TaskDefaults} {stamp : BatchStamp}
    {resultsDir : Text} {d : Disk} {f : Failure}
    (h : (t.session defaults resultsDir d).1 = .error f) :
    (t.recordOn defaults stamp resultsDir d).status = .failed ∧
      (t.recordOn defaults stamp resultsDir d).error = some f.chain := by
  rw [recordOn, h]
  exact ⟨rfl, rfl⟩

end Task

namespace Batch

/-! ## Collecting -/

/-- Slots are collected when each has a record. -/
theorem collect_eq_ok {index : Nat} {slots : List (Option (Except Failure TaskRecord))}
    {records : List TaskRecord} :
    collect index slots = .ok records ↔ slots = records.map fun r => some (.ok r) := by
  induction slots generalizing index records with
  | nil => cases records <;> simp [collect]
  | cons slot slots ih =>
    rcases slot with _ | f | r
    · cases records <;> simp [collect]
    · cases records <;> simp [collect]
    · rw [collect]
      cases hrest : collect (index + 1) slots with
      | error f =>
        have hnone : ∀ rs : List TaskRecord, slots ≠ rs.map fun r => some (.ok r) :=
          fun rs hrs => nomatch hrest.symm.trans (ih.2 hrs)
        cases records <;> simp [hnone]
      | ok rs =>
        obtain rfl := ih.1 hrest
        have hinjective : Function.Injective
            fun r : TaskRecord => some (.ok r : Except Failure TaskRecord) :=
          fun a b hab => by simpa using hab
        cases records <;> simp [List.map_inj_right hinjective]

/-- Slots that are all filled are not collected only when a task has failed. -/
theorem exists_error_of_collect {index : Nat} {results : List (Except Failure TaskRecord)}
    {f : Failure} (h : collect index (results.map some) = .error f) : .error f ∈ results := by
  induction results generalizing index with
  | nil => simp [collect] at h
  | cons result results ih =>
    cases result with
    | error g =>
      obtain rfl : g = f := by simpa [collect] using h
      exact List.mem_cons_self
    | ok r =>
      rw [List.map_cons, collect] at h
      cases hrest : collect (index + 1) (results.map some) with
      | ok rs => simp [hrest] at h
      | error g =>
        obtain rfl : g = f := by simpa [hrest] using h
        exact List.mem_cons_of_mem _ (ih hrest)

/-! ## Any schedule -/

/-- Runs a task of a manifest. -/
def runTask (m : Manifest) (stamp : BatchStamp) (out : Text) (t : Task) (d : Disk) :
    Except Failure TaskRecord × Disk :=
  t.run m.defaults stamp (Path.join out stamp.id) d

/-- The pool of the tasks of a manifest when its workers have followed a schedule. -/
def pool (m : Manifest) (stamp : BatchStamp) (out : Text) (jobs : Nat) (schedule : List Nat)
    (d : Disk) : Pool (Except Failure TaskRecord) :=
  (Pool.follow m.tasks (runTask m stamp out) schedule (.start jobs m.tasks.length) d).1

/-- The indices of tasks for which a worker of that pool has done something, in order. -/
def observed (what : Worker (Except Failure TaskRecord) → Option Nat) (m : Manifest)
    (stamp : BatchStamp) (out : Text) (jobs : Nat) (schedule : List Nat) (d : Disk) : List Nat :=
  Pool.observed what m.tasks (runTask m stamp out) schedule (.start jobs m.tasks.length) d

/-- When its results directory can be made, a batch is what its slots are collected to. -/
theorem run_fst {m : Manifest} {stamp : BatchStamp} {jobs : Nat} {out : Text} {d₀ d : Disk}
    (h : d₀.makeDirs (Path.join out stamp.id) = (.ok (), d)) :
    (run m stamp jobs out d₀).1 =
      (collect 0 (pool m stamp out jobs (Pool.inTurns jobs m.tasks.length) d).slots).map
        (Batch.mk stamp.id (Path.join out stamp.id)) := by
  have htasks : (fun t : Task => t.run m.defaults stamp (Path.join out stamp.id))
      = runTask m stamp out := rfl
  rw [run, h, pool]
  dsimp only
  rw [htasks, Pool.results]
  dsimp only
  cases collect 0 (Pool.follow m.tasks (runTask m stamp out) (Pool.inTurns jobs m.tasks.length)
    (.start jobs m.tasks.length) d).1.slots <;> rfl

/-- What becomes of the tasks of a manifest when workers have followed a schedule from a disk. -/
structure ExactlyOnce (m : Manifest) (stamp : BatchStamp) (out : Text) (jobs : Nat)
    (schedule : List Nat) (d : Disk) : Prop where
  /-- No two workers hold one index. -/
  holds_unique : ∀ i j k, (pool m stamp out jobs schedule d).Holds i k →
    (pool m stamp out jobs schedule d).Holds j k → i = j
  /-- Indices of tasks are held, and no more than there are workers. -/
  inFlight_lt : ∀ k ∈ (pool m stamp out jobs schedule d).inFlight, k < m.tasks.length
  inFlight_le : (pool m stamp out jobs schedule d).inFlight.length ≤ jobs
  /-- No task is ever run a second time. -/
  ran_nodup : (observed Worker.running? m stamp out jobs schedule d).Nodup
  /-- All workers stop when each has taken enough steps. -/
  stops : (∀ i < Pool.size jobs m.tasks.length,
      Pool.rounds m.tasks.length ≤ schedule.count i) →
    (pool m stamp out jobs schedule d).AllStopped
  /-- Then every task was run once and every slot was written once. -/
  ran : (pool m stamp out jobs schedule d).AllStopped →
    (observed Worker.running? m stamp out jobs schedule d).Perm (List.range m.tasks.length)
  stored : (pool m stamp out jobs schedule d).AllStopped →
    (observed Worker.finished? m stamp out jobs schedule d).Perm (List.range m.tasks.length)
  /-- The records are those of the tasks, in order, each of a disk that other tasks have left. -/
  records : (pool m stamp out jobs schedule d).AllStopped →
    ∀ records, collect 0 (pool m stamp out jobs schedule d).slots = .ok records →
      records.length = m.tasks.length ∧
      ∀ k t, m.tasks[k]? = some t → ∃ before, Pool.Others m.tasks.length k before ∧
        records[k]? = some (t.recordOn m.defaults stamp (Path.join out stamp.id)
          (Pool.worldAfter m.tasks (runTask m stamp out) before d))
  /-- A session that fails does no more than to make its own record that of a failed task. -/
  failed : ∀ t ∈ m.tasks, ∀ d' f,
    (t.session m.defaults (Path.join out stamp.id) d').1 = .error f →
      (t.recordOn m.defaults stamp (Path.join out stamp.id) d').status = .failed ∧
      (t.recordOn m.defaults stamp (Path.join out stamp.id) d').error = some f.chain
  /-- There are no records only when that of some task could not be written. -/
  failure : (pool m stamp out jobs schedule d).AllStopped →
    ∀ f, collect 0 (pool m stamp out jobs schedule d).slots = .error f →
      ∃ k t before, m.tasks[k]? = some t ∧ Pool.Others m.tasks.length k before ∧
        t.saved m.defaults stamp (Path.join out stamp.id)
          (Pool.worldAfter m.tasks (runTask m stamp out) before d) = .error f
  /-- The results of independent tasks do not depend on the schedule. -/
  slots : (pool m stamp out jobs schedule d).AllStopped →
    Pool.Independent m.tasks (runTask m stamp out) d →
    (pool m stamp out jobs schedule d).slots
      = m.tasks.map fun t => some (runTask m stamp out t d).1
  /-- They are those of a batch that runs the tasks one after the other. -/
  sequential : (pool m stamp out jobs schedule d).AllStopped →
    Pool.Independent m.tasks (runTask m stamp out) d →
    ∀ d₀, d₀.makeDirs (Path.join out stamp.id) = (.ok (), d) →
      (run m stamp 1 out d₀).1 = (collect 0 (pool m stamp out jobs schedule d).slots).map
        (Batch.mk stamp.id (Path.join out stamp.id))

section

variable {m : Manifest} {stamp : BatchStamp} {out : Text} {jobs : Nat} {schedule : List Nat}
  {d : Disk}

/-- No more indices are held than there are workers. -/
theorem length_inFlight_le (hjobs : 1 ≤ jobs) :
    (pool m stamp out jobs schedule d).inFlight.length ≤ jobs := by
  have hworkers : (pool m stamp out jobs schedule d).workers.length
      = Pool.size jobs m.tasks.length := Pool.length_workers _ _ _ _ _ _ rfl
  have hheld := List.length_filterMap_le Worker.held? (pool m stamp out jobs schedule d).workers
  rw [hworkers, Pool.size] at hheld
  rw [Pool.inFlight]
  omega

/-- The records of tasks, each with the disk it was run on. -/
theorem records_of_allStopped (hstopped : (pool m stamp out jobs schedule d).AllStopped)
    {records : List TaskRecord}
    (h : collect 0 (pool m stamp out jobs schedule d).slots = .ok records) :
    records.length = m.tasks.length ∧
      ∀ k t, m.tasks[k]? = some t → ∃ before, Pool.Others m.tasks.length k before ∧
        records[k]? = some (t.recordOn m.defaults stamp (Path.join out stamp.id)
          (Pool.worldAfter m.tasks (runTask m stamp out) before d)) := by
  obtain ⟨results, hslots, hlength, hresults⟩ := Pool.exists_results hstopped
  have hrecords := hslots.symm.trans (collect_eq_ok.1 h)
  obtain rfl : results = records.map .ok := by
    refine (List.map_inj_right fun _ _ => Option.some.inj).1 (hrecords.trans ?_)
    rw [List.map_map]
    rfl
  rw [List.length_map] at hlength
  refine ⟨hlength, fun k t ht => ?_⟩
  have hk : k < records.length := hlength ▸ (List.getElem?_eq_some_iff.1 ht).1
  obtain ⟨t', before, ht', hbefore, hr⟩ := hresults k (.ok records[k]) (by simp [hk])
  obtain rfl : t = t' := Option.some.inj (ht.symm.trans ht')
  refine ⟨before, hbefore, ?_⟩
  -- a record that was returned was also written
  rw [runTask, Task.run_fst] at hr
  cases hsaved : t.saved m.defaults stamp (Path.join out stamp.id)
      (Pool.worldAfter m.tasks (runTask m stamp out) before d) with
  | error f => simp [hsaved, Except.map] at hr
  | ok u =>
    rw [List.getElem?_eq_getElem hk]
    simpa [hsaved, Except.map] using hr

/-- A failure is that of writing a record. -/
theorem failure_of_allStopped (hstopped : (pool m stamp out jobs schedule d).AllStopped)
    {f : Failure} (h : collect 0 (pool m stamp out jobs schedule d).slots = .error f) :
    ∃ k t before, m.tasks[k]? = some t ∧ Pool.Others m.tasks.length k before ∧
      t.saved m.defaults stamp (Path.join out stamp.id)
        (Pool.worldAfter m.tasks (runTask m stamp out) before d) = .error f := by
  obtain ⟨results, hslots, -, hresults⟩ := Pool.exists_results hstopped
  obtain ⟨k, hk⟩ := List.getElem?_of_mem
    (exists_error_of_collect ((congrArg (collect 0) hslots).symm.trans h))
  obtain ⟨t, before, ht, hbefore, hr⟩ := hresults k _ hk
  refine ⟨k, t, before, ht, hbefore, ?_⟩
  rw [runTask, Task.run_fst] at hr
  cases hsaved : t.saved m.defaults stamp (Path.join out stamp.id)
      (Pool.worldAfter m.tasks (runTask m stamp out) before d) with
  | error g => simpa [hsaved, Except.map] using hr.symm
  | ok u => simp [hsaved, Except.map] at hr

end

/-- A manifest of two tasks. -/
def sampleManifest : Manifest where
  defaults := {}
  tasks :=
    [⟨['a'], "/w/a".toList, "/w/p".toList, none, none⟩,
     ⟨['b'], "/w/b".toList, "/w/p".toList, none, none⟩]

/-- What tells a run of it from others. -/
def sampleStamp : BatchStamp := ⟨['x'], [], [], 0⟩

/-- A disk with a directory, but not with those of the tasks. -/
def sampleDisk : Disk := ⟨[([], .dir), ([['w']], .dir)], []⟩

/-- The record of a task whose directory is missing. -/
def missing (t : Task) : TaskRecord :=
  t.record sampleStamp none (.error (Repair.noDirectory t.workdir))

/-- Others of two tasks are nobody or the other one. -/
theorem others_two {k : Nat} {before : List Nat} (hk : k < 2) (h : Pool.Others 2 k before) :
    before = [] ∨ before = [1 - k] := by
  obtain ⟨hnodup, hnotMem, hlt⟩ := h
  match before with
  | [] => exact .inl rfl
  | [i] =>
    have hi := hlt i (by simp)
    have hne : i ≠ k := by simpa [eq_comm] using hnotMem
    exact .inr (by rw [show i = 1 - k by omega])
  | i :: j :: rest =>
    have hi := hlt i (by simp)
    have hj := hlt j (by simp)
    have hij : i ≠ j := by
      rintro rfl
      simp at hnodup
    simp only [List.mem_cons, not_or] at hnotMem
    omega

theorem independent_sample : Pool.Independent sampleManifest.tasks
    (runTask sampleManifest sampleStamp "/o".toList) sampleDisk := by
  intro k t before ht hbefore
  match k with
  | 0 =>
    obtain rfl := Option.some.inj ht
    obtain rfl | rfl := others_two (by decide) hbefore
    · rfl
    · rfl
  | 1 =>
    obtain rfl := Option.some.inj ht
    obtain rfl | rfl := others_two (by decide) hbefore
    · rfl
    · rfl
  | k + 2 => simp [sampleManifest] at ht

end Batch

end Mend
