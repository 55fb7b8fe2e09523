import Mend.Proofs.Batch.RecordFiles
import Mend.Proofs.Batch.Records
import Mend.Proofs.Session.Logs

/-!
# Tasks and the results directory

A task that stays out of the results directory (`Task.Avoids`) changes no more of it than its own
directory there, whatever comes of its session: the log and the record are all that is written
(`Task.run_grows`). A task that has its record has it in the file in that directory
(`Task.run_spec`).
-/

namespace Mend

/-! ## Numbers of turns -/

namespace Toml

variable {fields : List (Text × Toml)} {name : String} {bound n : Nat}

theorem lt_of_nat? {v : Toml} (h : nat? bound v = some n) : n < bound := by
  cases v with
  | int k =>
    cases k with
    | ofNat k =>
      rw [nat?] at h
      split at h
      · rename_i hlt
        cases h
        exact hlt
      · cases h
    | negSucc k => cases h
  | _ => cases h

theorem lt_of_fieldOr {default : Nat} (h : fieldOr fields name (nat? bound) default = some n)
    (hdefault : default < bound) : n < bound := by
  rw [fieldOr] at h
  split at h
  · cases h
    exact hdefault
  · exact lt_of_nat? h

theorem lt_of_field? (h : field? fields name (nat? bound) = some (some n)) : n < bound := by
  rw [field?, fieldOr] at h
  split at h
  · cases h
  · obtain ⟨k, hk, heq⟩ := Option.map_eq_some_iff.1 h
    cases heq
    exact lt_of_nat? hk

end Toml

/-- A configuration that is loaded allows a number of turns in 32 bits. -/
theorem Config.maxTurns_lt_of_load {path : Text} {d : Disk} {c : Config}
    (h : load path d = .ok c) : c.maxTurns < word32 := by
  have hdefault : ({} : Config).maxTurns < word32 := by decide
  rw [load] at h
  split at h
  · cases h
    exact hdefault
  split at h
  · cases h
  split at h
  · cases h
  rename_i hread
  split at h
  · cases h
  cases h
  obtain ⟨v, -, hv⟩ := Option.bind_eq_some_iff.1 hread
  simp only [ofToml?, Option.bind_eq_bind, Option.bind_eq_some_iff] at hv
  obtain ⟨fields, -, turns, hturns, _, -, _, -, _, -, _, -, _, -, _, -, _, -, hc⟩ := hv
  cases hc
  exact Toml.lt_of_fieldOr hturns hdefault

/-! ## Preparing a repair -/

namespace Repair

variable {r : Repair} {d : Disk} {c : Config} {prompt : Text} {g : Generator}

theorem config_eq_ok (h : r.config d = .ok c) : ∃ c', Config.load r.configPath d = .ok c' ∧
    c = { c' with maxTurns := r.maxTurns.getD c'.maxTurns, logDir := r.logDir.or c'.logDir } := by
  rw [config] at h
  split at h
  · cases h
  rename_i c' hload
  dsimp only at h
  split at h
  · cases h
  · cases h
    exact ⟨c', hload, rfl⟩

/-- A repair that is prepared has its working directory and its configuration. -/
theorem prepare_eq_ok (h : r.prepare d = .ok (c, prompt, g)) :
    d.isDir r.workdir = true ∧ r.config d = .ok c := by
  cases hdir : d.isDir r.workdir with
  | false => simp [prepare, hdir, bind, Except.bind, throw, throwThe, MonadExceptOf.throw] at h
  | true =>
    cases hconfig : r.config d with
    | error f => simp [prepare, hdir, hconfig, bind, Except.bind] at h
    | ok c' =>
      rw [prepare, hdir, hconfig] at h
      simp only [Bool.not_true, Bool.false_eq_true, if_false, bind, Except.bind] at h
      cases hread : d.readText r.prompt with
      | error e => simp [hread, throw, throwThe, MonadExceptOf.throw] at h
      | ok t =>
        cases hgenerator : Generator.ofConfig c'.generator (some r.workdir) with
        | error f => simp [hread, pure, Except.pure, hgenerator] at h
        | ok g' =>
          obtain ⟨rfl, -, -⟩ : c' = c ∧ t = prompt ∧ g' = g := by
            simpa [hread, pure, Except.pure, hgenerator] using h
          exact ⟨rfl, rfl⟩

end Repair

namespace Task

variable {t : Task} {defaults : TaskDefaults} {stamp : BatchStamp} {resultsDir : Text}
  {loc : Location} {d d' : Disk}

/-- The record of a task has a number of turns in 32 bits, if the task is allowed no others. -/
theorem turns_recordOn_lt (hturns : ∀ n, t.turns? defaults = some n → n < word32) :
    (t.recordOn defaults stamp resultsDir d).turns < word32 := by
  rw [recordOn]
  cases hsession : (t.session defaults resultsDir d).1 with
  | error f => exact Nat.two_pow_pos 32
  | ok o =>
    rw [session, Repair.run] at hsession
    split at hsession
    · cases hsession
    rename_i c prompt g hprepare
    obtain ⟨c', hload, rfl⟩ := Repair.config_eq_ok (Repair.prepare_eq_ok hprepare).2
    refine Nat.lt_of_le_of_lt (Session.turns_le_of_run hsession) ?_
    change (t.turns? defaults).getD c'.maxTurns < word32
    cases hown : t.turns? defaults with
    | none => exact Config.maxTurns_lt_of_load hload
    | some n => exact hturns n hown

/-! ## Staying out of a directory -/

/-- A task that is run on a disk stays out of a directory for results: its working directory is
apart from it, and its generator leaves it alone whenever it is called. -/
structure Avoids (t : Task) (defaults : TaskDefaults) (resultsDir : Text) (loc : Location)
    (d : Disk) : Prop where
  apart : Disk.Apart (Disk.destination d.home t.workdir) loc
  send : ∀ c prompt g,
    (t.repair defaults (Path.join resultsDir t.id)).prepare d = .ok (c, prompt, g) →
    ∀ messages m, Disk.Keeps (fun _ => True) d m → Disk.Skips loc m (g.send messages m).2

section Run

variable (hid : Path.IsName t.id) (hfound : d.find resultsDir = .ok (loc, .dir))

include hid hfound

/-- What is written below the directory of the task is written in its part of the results. -/
theorem enters {m : Disk} (hgrows : Disk.Grows loc (loc ++ [t.id]) d m) {names : List Text}
    (hnames : ∀ name ∈ names, Path.IsName name) :
    m.Enters (loc ++ [t.id]) ((t.id :: names).foldl Path.join resultsDir) ∧
      loc ++ [t.id] <+: Disk.destination m.home ((t.id :: names).foldl Path.join resultsDir) := by
  have hall : ∀ name ∈ t.id :: names, Path.IsName name := List.forall_mem_cons.2 ⟨hid, hnames⟩
  have hthere := hgrows.keeps.find hfound
  have hloc : loc = Disk.destination m.home resultsDir :=
    Disk.destination_of_walk (Disk.find_eq_ok.1 hthere).1
  have henters := Disk.enters_foldl_join (Disk.leads_of_find hthere) hall
  rw [← hloc] at henters
  refine ⟨henters, ?_⟩
  rw [Path.destination_foldl_join hall, ← hloc]
  exact ⟨names, by simp⟩

/-- The log of a session is written in the part of its task. -/
theorem writeDir_grows {m m' : Disk} (hgrows : Disk.Grows loc (loc ++ [t.id]) d m)
    {names : List Text} (hnames : ∀ name ∈ names, Path.IsName name) {doing : String}
    {files : List (Text × Text)} (hfiles : ∀ file ∈ files, Path.IsName file.1)
    {x : Except Failure Unit}
    (h : TurnLog.writeDir doing ((t.id :: names).foldl Path.join resultsDir) files m = (x, m')) :
    Disk.Grows loc (loc ++ [t.id]) d m' := by
  obtain ⟨henters, hsub⟩ := enters hid hfound hgrows hnames
  exact hgrows.trans (TurnLog.writeDir_grows hfiles henters hsub h)

/-- Whatever comes of its session, a task changes its own part of the results only. -/
theorem session_grows (havoids : t.Avoids defaults resultsDir loc d) :
    Disk.Grows loc (loc ++ [t.id]) d (t.session defaults resultsDir d).2 := by
  rw [session, Repair.run]
  split
  · exact .refl loc _ d
  rename_i c prompt g hprepare
  obtain ⟨hdir, hconfig⟩ := Repair.prepare_eq_ok hprepare
  obtain ⟨c', -, rfl⟩ := Repair.config_eq_ok hconfig
  obtain ⟨other, hother⟩ := Disk.find_of_isDir hdir
  have hworkdir : other = Disk.destination d.home t.workdir :=
    Disk.destination_of_walk (Disk.find_eq_ok.1 hother).1
  have hturns : Path.IsName "turns".toList := by decide
  have hlog : ∀ name ∈ ["turns".toList, t.id], Path.IsName name :=
    List.forall_mem_cons.2 ⟨hturns, List.forall_mem_singleton.2 hid⟩
  refine Session.Keeps.run ⟨Store.keeps_of_serve fun request m hgrows => ?_, ?_, ?_⟩ ?_
    (.refl loc _ d)
  · have hroot : Disk.Agree (DirectoryStore.mk t.workdir c'.maxFileBytes).root other m m :=
      .refl (hgrows.keeps.find hother)
    obtain ⟨answer, m₁, m₂, hserve, -, hmoved⟩ := DirectoryStore.serve_agree hroot request
    have hskips := hmoved.confined.skips (hworkdir ▸ havoids.apart)
    change Disk.Grows loc _ d (Store.serve _ request m).2
    exact hgrows.trans (.of_skips (hserve ▸ hskips))
  · intro messages c ws m x m' hsend hgrows
    have hskips := havoids.send _ _ _ hprepare messages m hgrows.keeps
    change g.send messages m = _ at hsend
    rw [hsend] at hskips
    exact hgrows.trans (.of_skips hskips)
  · intro log r c ws m x m' hlog? hwrite hgrows
    cases hlog?
    have hnames : ∀ name ∈ ["turns".toList, t.id, Text.ofNat r.number], Path.IsName name :=
      List.forall_mem_cons.2 ⟨hturns, List.forall_mem_cons.2 ⟨hid,
        List.forall_mem_singleton.2 (Path.isName_ofNat r.number)⟩⟩
    exact writeDir_grows hid hfound hgrows hnames
      (TurnLog.isProper_turnFolder hid r).isName_files hwrite
  · intro log ms m x m' hlog? hwrite hgrows
    cases hlog?
    have hfiles : Path.IsName "transcript.json".toList := by decide
    exact writeDir_grows hid hfound hgrows hlog (List.forall_mem_singleton.2 hfiles) hwrite

omit hid hfound in
/-- A task is run by running its session and then saving its record. -/
theorem run_eq {x : Except Failure Unit} {m : Disk}
    (h : (t.recordOn defaults stamp resultsDir d).save
      (Path.join (Path.join resultsDir t.id) "meta.json".toList)
      (t.session defaults resultsDir d).2 = (x, m)) :
    t.run defaults stamp resultsDir d
      = (x.map fun _ => t.recordOn defaults stamp resultsDir d, m) := by
  unfold recordOn session at *
  unfold run
  dsimp only
  rw [h]
  cases x <;> rfl

/-- Whatever comes of a task, it changes its own part of the results only. -/
theorem run_grows (havoids : t.Avoids defaults resultsDir loc d) :
    Disk.Grows loc (loc ++ [t.id]) d (t.run defaults stamp resultsDir d).2 := by
  have hgrows := session_grows hid hfound havoids
  have hmeta : Path.IsName "meta.json".toList := by decide
  have henters : (t.session defaults resultsDir d).2.Enters (loc ++ [t.id])
      (Path.join (Path.join resultsDir t.id) "meta.json".toList) :=
    (enters hid hfound hgrows (List.forall_mem_singleton.2 hmeta)).1
  rcases hsave : (t.recordOn defaults stamp resultsDir d).save
    (Path.join (Path.join resultsDir t.id) "meta.json".toList)
    (t.session defaults resultsDir d).2 with ⟨x, m⟩
  rw [run_eq hsave]
  exact hgrows.trans (TaskRecord.save_grows hmeta henters hsave)

/-- A task that has its record has it in a file in its own directory. -/
theorem run_spec (havoids : t.Avoids defaults resultsDir loc d) {r : TaskRecord}
    (h : t.run defaults stamp resultsDir d = (.ok r, d')) :
    r = t.recordOn defaults stamp resultsDir d ∧
      d'.node? (loc ++ [t.id]) = some .dir ∧
      d'.find (Path.join (Path.join resultsDir t.id) "meta.json".toList)
        = .ok (loc ++ [t.id, "meta.json".toList], .file r.bytes) := by
  have hgrows := session_grows hid hfound havoids
  have hmeta : Path.IsName "meta.json".toList := by decide
  rcases hsave : (t.recordOn defaults stamp resultsDir d).save
    (Path.join (Path.join resultsDir t.id) "meta.json".toList)
    (t.session defaults resultsDir d).2 with ⟨f | u, m⟩
  · rw [run_eq hsave] at h
    cases h
  rw [run_eq hsave] at h
  cases h
  obtain ⟨hfile, hdir⟩ := TaskRecord.save_spec hmeta hsave
  have hloc : Disk.destination (t.session defaults resultsDir d).2.home resultsDir = loc := by
    rw [hgrows.home]
    exact (Disk.destination_of_walk (Disk.find_eq_ok.1 hfound).1).symm
  rw [hid.destination_join, hloc] at hfile hdir
  rw [List.append_assoc] at hfile
  exact ⟨rfl, hdir, hfile⟩

end Run

end Task

end Mend
