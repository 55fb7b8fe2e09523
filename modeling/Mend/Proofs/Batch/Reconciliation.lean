import Mend.Proofs.Batch.Reports
import Mend.Proofs.Batch.Tasks
import Mend.Proofs.Batch.WorkingDirectories

/-!
# Reports on batches

The tasks of a batch file their records one after the other, in the order in which the workers come
to them. After each task the results directory has the directories of the tasks so far, each with
the record of its task, and nothing else (`Batch.Filed`). So a report on the directory of a batch
that was run has no warnings and agrees with the records of the batch, whatever schedule the workers
have followed and in whatever order the directory is read (`Batch.ofDirectory_run`).

It takes a results directory with nothing in it that no task comes near (`Batch.HasOwnResults`), and
a manifest as it is loaded (`Manifest.isProper_of_load`).
-/

namespace Mend

/-! ## Manifests -/

namespace Manifest

/-- Tasks have names of their own, and are allowed numbers of turns in 32 bits. -/
structure IsProper (m : Manifest) : Prop where
  isName : ∀ t ∈ m.tasks, Path.IsName t.id
  nodup : (m.tasks.map Task.id).Nodup
  turns_lt : ∀ t ∈ m.tasks, ∀ n, t.turns? m.defaults = some n → n < word32

/-- A text of the characters that names may hold is a name of a file. -/
theorem isName_of_isSlug {id : Text} (h : Task.IsSlug id) : Path.IsName id := by
  have hnone : ∀ c : Char, Task.isIdChar c = false → c ∉ id := by
    intro c hc hmem
    exact Bool.false_ne_true (hc.symm.trans (Task.isIdChar_iff.2 (h.chars c hmem)))
  have hpoint : '.' ∉ id := hnone '.' (by decide)
  refine ⟨h.ne_nil, ?_, ?_, hnone Path.slash (by decide)⟩
  · rintro rfl
    exact hpoint List.mem_cons_self
  · rintro rfl
    exact hpoint List.mem_cons_self

theorem maxTurns_lt_of_task {v : Toml} {t : Task} (h : Task.ofToml? v = some t) {n : Nat}
    (hn : t.maxTurns = some n) : n < word32 := by
  simp only [Task.ofToml?, Option.bind_eq_bind, Option.bind_eq_some_iff] at h
  obtain ⟨fields, -, _, -, _, -, _, -, _, -, turns, hturns, ht⟩ := h
  cases ht
  obtain rfl : turns = some n := hn
  exact Toml.lt_of_field? hturns

theorem maxTurns_lt_of_defaults {v : Toml} {t : TaskDefaults} (h : TaskDefaults.ofToml? v = some t)
    {n : Nat} (hn : t.maxTurns = some n) : n < word32 := by
  simp only [TaskDefaults.ofToml?, Option.bind_eq_bind, Option.bind_eq_some_iff] at h
  obtain ⟨fields, -, _, -, turns, hturns, ht⟩ := h
  cases ht
  obtain rfl : turns = some n := hn
  exact Toml.lt_of_field? hturns

theorem exists_of_mem_mapM {α β : Type} {f : α → Option β} {xs : List α} {ys : List β}
    (h : xs.mapM f = some ys) {y : β} (hy : y ∈ ys) : ∃ x, f x = some y := by
  induction xs generalizing ys with
  | nil =>
    cases h
    cases hy
  | cons x xs ih =>
    simp only [List.mapM_cons, Option.bind_eq_bind, Option.bind_eq_some_iff] at h
    obtain ⟨first, hfirst, rest, hrest, hys⟩ := h
    cases hys
    rcases List.mem_cons.1 hy with rfl | hy
    · exact ⟨x, hfirst⟩
    · exact ih hrest hy

/-- A manifest that is loaded is proper. -/
theorem isProper_of_load {path : Text} {d : Disk} {m : Manifest} (h : load path d = .ok m) :
    m.IsProper := by
  have hvalid := isValid_of_fault? (fault?_of_load h)
  refine ⟨fun t ht => isName_of_isSlug (hvalid.isSlug t ht), hvalid.nodup, fun t ht n hn => ?_⟩
  rw [load] at h
  split at h
  · cases h
  split at h
  · cases h
  rename_i hread
  dsimp only at h
  split at h
  · cases h
  cases h
  obtain ⟨v, -, hv⟩ := Option.bind_eq_some_iff.1 hread
  simp only [ofToml?, Option.bind_eq_bind, Option.bind_eq_some_iff] at hv
  obtain ⟨fields, -, defaults, hdefaults, tasks, htasks, hm⟩ := hv
  cases hm
  obtain ⟨t₀, ht₀, rfl⟩ := List.mem_map.1 ht
  rcases Option.or_eq_some_iff.1 hn with hown | ⟨-, hdefault⟩
  · rw [Toml.fieldOr] at htasks
    split at htasks
    · cases htasks
      cases ht₀
    · obtain ⟨items, -, hitems⟩ := Option.bind_eq_some_iff.1 htasks
      obtain ⟨item, hitem⟩ := exists_of_mem_mapM hitems ht₀
      exact maxTurns_lt_of_task hitem hown
  · rw [Toml.fieldOr] at hdefaults
    split at hdefaults
    · cases hdefaults
      cases hdefault
    · exact maxTurns_lt_of_defaults hdefaults hdefault

end Manifest

/-! ## Filing records -/

/-- A record that was made is the one of its task. -/
theorem Task.eq_recordOn {t : Task} {defaults : TaskDefaults} {stamp : BatchStamp}
    {resultsDir : Text} {d : Disk} {r : TaskRecord}
    (h : (t.run defaults stamp resultsDir d).1 = .ok r) :
    r = t.recordOn defaults stamp resultsDir d := by
  rw [run_fst] at h
  cases hsaved : t.saved defaults stamp resultsDir d with
  | error f => simp [hsaved, Except.map] at h
  | ok u => simpa [hsaved, Except.map, eq_comm] using h

theorem Task.taskId_recordOn (t : Task) (defaults : TaskDefaults) (stamp : BatchStamp)
    (resultsDir : Text) (d : Disk) : (t.recordOn defaults stamp resultsDir d).taskId = t.id := by
  unfold recordOn record
  dsimp only
  split <;> rfl

theorem Task.seconds_recordOn (t : Task) (defaults : TaskDefaults) (stamp : BatchStamp)
    (resultsDir : Text) (d : Disk) :
    (t.recordOn defaults stamp resultsDir d).seconds = stamp.seconds := by
  unfold recordOn record
  dsimp only
  split <;> rfl

namespace Batch

section Filed

variable {resultsDir : Text} {loc : Location} {d₁ d d' : Disk} {records : List TaskRecord}

/-- Records were filed in a directory: each has a directory with its file, and nothing else stands
there. -/
structure Filed (resultsDir : Text) (loc : Location) (d₁ : Disk) (records : List TaskRecord)
    (d : Disk) : Prop where
  keeps : Disk.Keeps (fun _ => True) d₁ d
  tidy : d.IsTidy loc
  folders : ∀ name node, d.node? (loc ++ [name]) = some node ↔
    node = .dir ∧ name ∈ records.map TaskRecord.taskId
  files : ∀ r ∈ records, d.find (Path.join (Path.join resultsDir r.taskId) "meta.json".toList)
    = .ok (loc ++ [r.taskId, "meta.json".toList], .file r.bytes)

theorem Filed.nil (hempty : ∀ rest, rest ≠ [] → d.node? (loc ++ rest) = none) :
    Filed resultsDir loc d [] d where
  keeps := .refl d
  tidy := Disk.isTidy_of_empty hempty
  folders name node := by simp [hempty [name] (List.cons_ne_nil _ _)]
  files := by simp

theorem Filed.perm (h : Filed resultsDir loc d₁ records d) {others : List TaskRecord}
    (hperm : records.Perm others) : Filed resultsDir loc d₁ others d where
  keeps := h.keeps
  tidy := h.tidy
  folders name node := by rw [h.folders, (hperm.map TaskRecord.taskId).mem_iff]
  files r hr := h.files r (hperm.mem_iff.2 hr)

/-- A task that is run files its record. -/
theorem Filed.run (h : Filed resultsDir loc d₁ records d)
    (hfound : d₁.find resultsDir = .ok (loc, .dir)) {t : Task} {defaults : TaskDefaults}
    {stamp : BatchStamp} (hid : Path.IsName t.id)
    (hfresh : t.id ∉ records.map TaskRecord.taskId)
    (havoids : t.Avoids defaults resultsDir loc d) {r : TaskRecord}
    (hrun : t.run defaults stamp resultsDir d = (.ok r, d')) :
    Filed resultsDir loc d₁ (records ++ [r]) d' := by
  have hfound' := h.keeps.find hfound
  obtain ⟨rfl, hdir, hfile⟩ := Task.run_spec hid hfound' havoids hrun
  have hgrows : Disk.Grows loc (loc ++ [t.id]) d d' := by
    have hgrows : Disk.Grows loc (loc ++ [t.id]) d (t.run defaults stamp resultsDir d).2 :=
      Task.run_grows hid hfound' havoids
    rwa [hrun] at hgrows
  have hname := t.taskId_recordOn defaults stamp resultsDir d
  -- what stands under another name is left alone
  have hother : ∀ name rest, name ≠ t.id →
      d'.node? (loc ++ name :: rest) = d.node? (loc ++ name :: rest) := by
    intro name rest hne
    refine hgrows.others _ (List.prefix_append ..) fun hsub => hne ?_
    rw [List.prefix_append_right_inj, List.cons_prefix_cons] at hsub
    exact hsub.1.symm
  refine ⟨h.keeps.trans hgrows.keeps, hgrows.tidy h.tidy, fun name node => ?_, fun r' hr' => ?_⟩
  · rw [List.map_append, List.map_singleton, hname, List.mem_append, List.mem_singleton]
    by_cases hne : name = t.id
    · rw [hne, hdir, Option.some_inj]
      simp [eq_comm]
    · rw [hother name [] hne, h.folders]
      simp [hne]
  · rcases List.mem_append.1 hr' with hold | hnew
    · have hne : r'.taskId ≠ t.id := fun heq =>
        hfresh (heq ▸ List.mem_map_of_mem hold)
      obtain ⟨hwalk, hnode⟩ := Disk.find_eq_ok.1 (h.files r' hold)
      exact Disk.find_eq_ok.2 ⟨hgrows.keeps.walk hwalk, (hother _ _ hne).trans hnode⟩
    · rw [List.mem_singleton.1 hnew, hname]
      exact hfile

/-- Reading filed records gives them without a warning, in whatever order they are read. -/
theorem Filed.collect (h : Filed resultsDir loc d₁ records d)
    (hnames : (records.map TaskRecord.taskId).Nodup) (hturns : ∀ r ∈ records, r.turns < 2 ^ 32)
    (hseconds : ∀ r ∈ records, FieldKind.float.Reads (.number (.float r.seconds)))
    (entries : List (Text × DiskNode)) (hentries : entries.Perm (d.children loc)) :
    ∃ found, Report.collect resultsDir d entries = (found, []) ∧ found.Perm records := by
  have hload : ∀ r ∈ records, TaskRecord.load
      (Path.join (Path.join resultsDir r.taskId) "meta.json".toList) d = .ok r := fun r hr =>
    TaskRecord.load_of_find (h.files r hr) (hturns r hr) (hseconds r hr)
  have hperm := hentries.trans (Disk.children_perm h.tidy hnames h.folders)
  rw [List.map_map] at hperm
  refine ⟨_, Report.collect_of_load fun e he => ?_, (hperm.filterMap _).trans ?_⟩
  · obtain ⟨r, hr, rfl⟩ := List.mem_map.1 (hperm.subset he)
    exact ⟨rfl, r, hload r hr⟩
  · rw [List.filterMap_map]
    have hsome : ∀ r ∈ records, ((fun e : Text × DiskNode => (TaskRecord.load
        (Path.join (Path.join resultsDir e.1) "meta.json".toList) d).toOption) ∘
        ((fun name => (name, DiskNode.dir)) ∘ TaskRecord.taskId)) r = some r := by
      intro r hr
      simp only [Function.comp, hload r hr]
      rfl
    rw [List.filterMap_congr hsome, List.filterMap_some]

end Filed

/-! ## Any schedule -/

/-- A directory was made for the results of a batch, and no task comes near it: there is nothing
below it, the working directories are apart from it, and no generator touches it, whichever tasks
were run before and however often it is called. -/
structure HasOwnResults (m : Manifest) (stamp : BatchStamp) (out : Text) (loc : Location)
    (d : Disk) : Prop where
  empty : ∀ rest, rest ≠ [] → d.node? (loc ++ rest) = none
  apart : ∀ t ∈ m.tasks, Disk.Apart (Disk.destination d.home t.workdir) loc
  send : ∀ k t before, m.tasks[k]? = some t → Pool.Others m.tasks.length k before →
    ∀ c prompt g, (t.repair m.defaults (Path.join (Path.join out stamp.id) t.id)).prepare
        (Pool.worldAfter m.tasks (runTask m stamp out) before d) = .ok (c, prompt, g) →
      ∀ messages d', Disk.Keeps (fun _ => True)
          (Pool.worldAfter m.tasks (runTask m stamp out) before d) d' →
        Disk.Skips loc d' (g.send messages d').2

/-- Tasks that come before one and the same task in an order are the same. -/
theorem eq_of_prefix_concat {order before ks : List Nat} {k : Nat} (hnodup : order.Nodup)
    (h : before ++ [k] <+: order) (h' : ks ++ [k] <+: order) : before = ks := by
  have hnot : ∀ {xs : List Nat}, xs ++ [k] <+: order → k ∉ xs := fun hxs hmem =>
    (List.nodup_append.1 (hxs.sublist.nodup hnodup)).2.2 k hmem k (by simp) rfl
  rcases List.prefix_or_prefix_of_prefix h h' with hle | hle
  · rcases List.prefix_concat_iff.1 hle with heq | hbelow
    · exact List.append_cancel_right heq
    · exact absurd (hbelow.subset (by simp)) (hnot h')
  · rcases List.prefix_concat_iff.1 hle with heq | hbelow
    · exact (List.append_cancel_right heq).symm
    · exact absurd (hbelow.subset (by simp)) (hnot h)

section Order

variable {m : Manifest} {stamp : BatchStamp} {out : Text} {loc : Location} {d : Disk}
  {order : List Nat} {records : List TaskRecord} (hm : m.IsProper)
  (hown : HasOwnResults m stamp out loc d)
  (hfound : d.find (Path.join out stamp.id) = .ok (loc, .dir)) (hnodup : order.Nodup)
  (hlt : ∀ k ∈ order, k < m.tasks.length) (hlength : records.length = m.tasks.length)
  (hmet : ∀ k r, records[k]? = some r →
    Pool.IsMet m.tasks (runTask m stamp out) d order k (.ok r))

include hmet in
/-- Each record is the one of its task. -/
theorem exists_recordOn {k : Nat} {r : TaskRecord} (hr : records[k]? = some r) :
    ∃ t d', m.tasks[k]? = some t ∧ r = t.recordOn m.defaults stamp (Path.join out stamp.id) d' := by
  obtain ⟨t, before, ht, -, hrun⟩ := hmet k r hr
  exact ⟨t, _, ht, Task.eq_recordOn hrun.symm⟩

include hlength hmet in
theorem map_taskId_eq : records.map TaskRecord.taskId = m.tasks.map Task.id := by
  refine List.ext_getElem (by simpa using hlength) fun k hk hk' => ?_
  rw [List.length_map] at hk
  obtain ⟨t, d', ht, hr⟩ := exists_recordOn hmet (List.getElem?_eq_getElem hk)
  obtain ⟨hlt', rfl⟩ := List.getElem?_eq_some_iff.1 ht
  rw [List.getElem_map, List.getElem_map, hr, Task.taskId_recordOn]

include hm hown hfound hnodup hlt hlength hmet in
/-- After some of the tasks in their order, their records are filed. -/
theorem filed_of_prefix {ks : List Nat} (hks : ks <+: order) :
    Filed (Path.join out stamp.id) loc d (ks.filterMap (records[·]?))
      (Pool.worldAfter m.tasks (runTask m stamp out) ks d) := by
  induction ks using List.reverseRecOn with
  | nil => exact .nil hown.empty
  | append_singleton ks k ih =>
    have hfiled := ih ((List.prefix_append ..).trans hks)
    have hk : k < records.length := hlength ▸ hlt k (hks.subset (by simp))
    have hr := List.getElem?_eq_getElem hk
    obtain ⟨t, before, ht, hbefore, hrun⟩ := hmet k _ hr
    obtain rfl := eq_of_prefix_concat hnodup hbefore hks
    have hmem := List.mem_of_getElem? ht
    have hothers := Pool.others_of_prefix hnodup hlt hks
    have hfresh : t.id ∉ (before.filterMap (records[·]?)).map TaskRecord.taskId := by
      intro hid
      obtain ⟨r, hr, hname⟩ := List.mem_map.1 hid
      obtain ⟨j, hj, hr⟩ := List.mem_filterMap.1 hr
      obtain ⟨u, d', hu, rfl⟩ := exists_recordOn hmet hr
      rw [Task.taskId_recordOn] at hname
      have hids : (m.tasks.map Task.id)[j]? = (m.tasks.map Task.id)[k]? := by
        rw [List.getElem?_map, List.getElem?_map, hu, ht]
        exact congrArg some hname
      have hsame := (List.getElem?_inj (by simpa using hothers.lt j hj) hm.nodup).1 hids
      exact hothers.notMem (hsame ▸ hj)
    have havoids : t.Avoids m.defaults (Path.join out stamp.id) loc
        (Pool.worldAfter m.tasks (runTask m stamp out) before d) :=
      ⟨hfiled.keeps.home ▸ hown.apart t hmem, hown.send k t before ht hothers⟩
    have hstep := hfiled.run hfound (hm.isName t hmem) hfresh havoids (Prod.ext hrun.symm rfl)
    have hworld : Pool.worldAfter m.tasks (runTask m stamp out) (before ++ [k]) d
        = (runTask m stamp out t (Pool.worldAfter m.tasks (runTask m stamp out) before d)).2 := by
      simp [Pool.worldAfter, ht]
    have hrecords : (before ++ [k]).filterMap (records[·]?)
        = before.filterMap (records[·]?) ++ [records[k]] := by
      simp [List.filterMap_append, hk]
    rw [hworld, hrecords]
    exact hstep

end Order

theorem filterMap_range (records : List TaskRecord) :
    (List.range records.length).filterMap (records[·]?) = records := by
  induction records using List.reverseRecOn with
  | nil => rfl
  | append_singleton records r ih =>
    have hfront : (List.range records.length).filterMap ((records ++ [r])[·]?)
        = (List.range records.length).filterMap (records[·]?) :=
      List.filterMap_congr fun k hk => List.getElem?_append_left (List.mem_range.1 hk)
    rw [List.length_append, List.length_singleton, List.range_succ, List.filterMap_append, hfront, ih]
    simp

section Run

variable {m : Manifest} {stamp : BatchStamp} {out : Text} {loc : Location} {jobs : Nat}
  {d d₀ d' : Disk} {records : List TaskRecord}

/-- When all workers have stopped, whatever schedule they have followed, the records are filed. -/
theorem filed_of_allStopped {schedule : List Nat} (hm : m.IsProper)
    (hown : HasOwnResults m stamp out loc d)
    (hfound : d.find (Path.join out stamp.id) = .ok (loc, .dir))
    (hstopped : (pool m stamp out jobs schedule d).AllStopped)
    (hcollect : collect 0 (pool m stamp out jobs schedule d).slots = .ok records) :
    records.length = m.tasks.length ∧
      records.map TaskRecord.taskId = m.tasks.map Task.id ∧
      (∀ r ∈ records, r.turns < word32 ∧ r.seconds = stamp.seconds) ∧
      Filed (Path.join out stamp.id) loc d records (Pool.follow m.tasks (runTask m stamp out)
        schedule (.start jobs m.tasks.length) d).2 := by
  obtain ⟨order, results, horder, hworld, hslots, hlength, hmet⟩ := Pool.exists_order hstopped
  have hrecords := hslots.symm.trans (collect_eq_ok.1 hcollect)
  obtain rfl : results = records.map .ok := by
    refine (List.map_inj_right fun _ _ => Option.some.inj).1 (hrecords.trans ?_)
    rw [List.map_map]
    rfl
  rw [List.length_map] at hlength
  have hmet' : ∀ k r, records[k]? = some r →
      Pool.IsMet m.tasks (runTask m stamp out) d order k (.ok r) :=
    fun k r hr => hmet k _ (by simp [hr])
  refine ⟨hlength, map_taskId_eq hlength hmet', fun r hr => ?_, ?_⟩
  · obtain ⟨k, hk⟩ := List.getElem?_of_mem hr
    obtain ⟨t, w, ht, rfl⟩ := exists_recordOn hmet' hk
    exact ⟨Task.turns_recordOn_lt (hm.turns_lt t (List.mem_of_getElem? ht)),
      Task.seconds_recordOn ..⟩
  · have hfiled := filed_of_prefix hm hown hfound (horder.nodup_iff.2 List.nodup_range)
      (fun k hk => List.mem_range.1 (horder.subset hk)) hlength hmet' (List.prefix_refl order)
    rw [hworld]
    refine hfiled.perm ((horder.filterMap _).trans ?_)
    rw [← hlength, filterMap_range]

/-- On a disk with its results directory made, the workers of a batch have followed a schedule until
all of them have stopped, and have left the records of the batch and a disk. -/
structure Ran (m : Manifest) (stamp : BatchStamp) (out : Text) (jobs : Nat) (schedule : List Nat)
    (d : Disk) (batch : Batch) (d' : Disk) : Prop where
  stopped : (pool m stamp out jobs schedule d).AllStopped
  records : collect 0 (pool m stamp out jobs schedule d).slots = .ok batch.records
  resultsDir : batch.resultsDir = Path.join out stamp.id
  disk : d' = (Pool.follow m.tasks (runTask m stamp out) schedule (.start jobs m.tasks.length) d).2

/-- A batch is run by workers that take their steps in turns. -/
theorem ran_of_run {batch : Batch} (hmake : d₀.makeDirs (Path.join out stamp.id) = (.ok (), d))
    (h : run m stamp jobs out d₀ = (.ok batch, d')) :
    Ran m stamp out jobs (Pool.inTurns jobs m.tasks.length) d batch d' := by
  have hstopped : (pool m stamp out jobs (Pool.inTurns jobs m.tasks.length) d).AllStopped :=
    Pool.allStopped_inTurns jobs d
  have htasks : (fun t : Task => t.run m.defaults stamp (Path.join out stamp.id))
      = runTask m stamp out := rfl
  rw [run, hmake] at h
  dsimp only at h
  rw [htasks, Pool.results] at h
  dsimp only at h
  cases hcollect : collect 0 (Pool.follow m.tasks (runTask m stamp out)
      (Pool.inTurns jobs m.tasks.length) (.start jobs m.tasks.length) d).1.slots with
  | error f =>
    rw [hcollect] at h
    cases h
  | ok records =>
    rw [hcollect] at h
    cases h
    exact ⟨hstopped, hcollect, rfl, rfl⟩

end Run

/-! ### A task with a generator and one without a working directory -/

/-- A generator that does nothing leaves the disk as it is. -/
theorem send_true {g : Generator} (hprogram : g.program = "true".toList) (messages : List Message)
    (d : Disk) : (g.send messages d).2 = d := by
  -- what the reply is read from does not matter for the disk
  have hsend : (g.send messages d).2 = ((g.command messages).run d).2 := by
    rw [Generator.send]
    split
    · rename_i hrun
      rw [hrun]
    · rename_i hrun
      rw [hrun]
  obtain ⟨program, args, dir, seconds, limit⟩ := g
  obtain rfl : program = "true".toList := hprogram
  have hfound : ∀ d, (Generator.command ⟨"true".toList, args, dir, seconds, limit⟩
      messages).program? d = .ok (some fun _ _ m => (0, m)) := fun _ => rfl
  rw [hsend, Command.run]
  split
  · rfl
  split
  · rfl
  rw [hfound]
  dsimp only [Command.runIn, Command.execute]
  split
  · rfl
  · rfl

/-- One and a half seconds read as what they are. -/
theorem reads_seconds : FieldKind.float.Reads (.number (.float 1.5)) := by
  intro level c rest hc
  have hwrite : (Json.number (.float 1.5)).prettyAt level = "1.5".toList := by
    rw [Json.prettyAt, Json.compact]
    decide +kernel
  rw [hwrite]
  rcases hc with rfl | rfl <;> rfl

/-- A manifest of two tasks. -/
def benchManifest : Manifest where
  defaults := {}
  tasks :=
    [⟨['a'], "/w".toList, "/p".toList, none, none⟩,
     ⟨['b'], "/gone".toList, "/p".toList, none, none⟩]

/-- What tells a run of it from others. -/
def benchStamp : BatchStamp := ⟨['x'], [], [], 1.5⟩

/-- The entries of a disk with the directory of the first task, its configuration and its prompt. -/
def benchEntries : List (Location × DiskNode) :=
  [([], .dir), ([['w']], .dir),
   ([['w'], Config.fileName], .file (Text.toBytes "[generator]\ncommand = [\"true\"]\n".toList)),
   ([['p']], .file (Text.toBytes "go".toList))]

/-- The disk once a results directory is made. -/
def benchDisk : Disk := ⟨([['o'], ['x']], .dir) :: ([['o']], .dir) :: benchEntries, []⟩

theorem makeDirs_bench : (⟨benchEntries, []⟩ : Disk).makeDirs (Path.join "/o".toList benchStamp.id)
    = (.ok (), benchDisk) := by
  rfl

theorem hasOwnResults_bench : HasOwnResults benchManifest benchStamp "/o".toList
    (Disk.destination [] "/o/x".toList) benchDisk where
  empty rest hrest := by
    have hdest : Disk.destination [] "/o/x".toList = [['o'], ['x']] := by decide +kernel
    obtain ⟨name, more, rfl⟩ := List.exists_cons_of_ne_nil hrest
    rw [hdest]
    simp [benchDisk, benchEntries, Disk.node?, List.lookup_cons]
  apart := by
    intro t ht
    have hall : ∀ t ∈ benchManifest.tasks,
        ¬ Disk.destination [] t.workdir <+: Disk.destination [] "/o/x".toList ∧
        ¬ Disk.destination [] "/o/x".toList <+: Disk.destination [] t.workdir := by
      decide +kernel
    exact ⟨(hall t ht).1, (hall t ht).2⟩
  send := by
    intro k t before ht hothers c prompt g hprepare messages d' _
    have hk : k < 2 := (List.getElem?_eq_some_iff.1 ht).1
    -- whichever tasks were run before, the one with a directory has a program that does nothing
    have hall : ∀ k < 2, ∀ before ∈ [[], [1 - k]], ∀ t ∈ benchManifest.tasks[k]?,
        ((t.repair benchManifest.defaults (Path.join (Path.join "/o".toList benchStamp.id)
          t.id)).prepare (Pool.worldAfter benchManifest.tasks
            (runTask benchManifest benchStamp "/o".toList) before benchDisk)).toOption.all
          (fun p => p.2.2.program = "true".toList) = true := by
      decide +kernel
    have hprogram := hall k hk before (by simpa using others_two hk hothers) t ht
    rw [hprepare] at hprogram
    rw [send_true (by simpa [Except.toOption] using hprogram)]
    exact ⟨rfl, fun _ hdir => hdir, rfl⟩

/-- The records of both tasks can be written, whichever of them is run first. -/
theorem exists_run_bench : ∃ batch d',
    run benchManifest benchStamp 2 "/o".toList ⟨benchEntries, []⟩ = (.ok batch, d') := by
  rcases hrun : run benchManifest benchStamp 2 "/o".toList ⟨benchEntries, []⟩ with ⟨f | batch, d'⟩
  · exfalso
    have hfst : (run benchManifest benchStamp 2 "/o".toList ⟨benchEntries, []⟩).1 = _ :=
      run_fst makeDirs_bench
    rw [hrun] at hfst
    have hcollect : collect 0 (pool benchManifest benchStamp "/o".toList 2
        (Pool.inTurns 2 benchManifest.tasks.length) benchDisk).slots = .error f := by
      generalize collect 0 _ = collected at hfst ⊢
      cases collected with
      | error g => exact congrArg _ (Except.error.inj hfst).symm
      | ok records => cases hfst
    obtain ⟨k, t, before, ht, hothers, hsaved⟩ :=
      failure_of_allStopped (Pool.allStopped_inTurns 2 benchDisk) hcollect
    have hk : k < 2 := (List.getElem?_eq_some_iff.1 ht).1
    have hall : ∀ k < 2, ∀ before ∈ [[], [1 - k]], ∀ t ∈ benchManifest.tasks[k]?,
        (t.saved benchManifest.defaults benchStamp (Path.join "/o".toList benchStamp.id)
          (Pool.worldAfter benchManifest.tasks (runTask benchManifest benchStamp "/o".toList)
            before benchDisk)).toOption.isSome = true := by
      decide +kernel
    have hsome := hall k hk before (by simpa using others_two hk hothers) t ht
    rw [hsaved] at hsome
    cases hsome
  · exact ⟨batch, d', rfl⟩

end Batch

end Mend
