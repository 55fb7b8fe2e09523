import Mend.Batch.Record
import Mend.Proofs.Disk.Growth
import Mend.Proofs.Json.Records

/-!
# Files of records

The record of a task reads as itself from its file, whatever texts stand in it
(`TaskRecord.read_pretty`). So a record that was saved is loaded from where it was saved
(`TaskRecord.save_spec`, `TaskRecord.load_of_find`).
-/

namespace Mend

/-- The name of a status is that of one status. -/
theorem TaskStatus.ofName?_name (s : TaskStatus) : ofName? s.name = some s := by
  rcases s with (_ | _ | _ | _) | _ <;> rfl

theorem TaskStatus.name_inj {s s' : TaskStatus} : s.name = s'.name ↔ s = s' := by
  constructor
  · intro h
    have hread := congrArg ofName? h
    rw [ofName?_name, ofName?_name] at hread
    exact Option.some.inj hread
  · exact congrArg name

namespace TaskRecord

variable {r : TaskRecord}

/-- The members of a record. -/
def members (r : TaskRecord) : RecordForm.Values :=
  [("task_id".toList, .text r.taskId),
   ("batch_run_id".toList, .text r.batchId),
   ("session_id".toList, optionalText r.sessionId),
   ("workdir".toList, .text r.workdir),
   ("prompt_hash".toList, optionalText r.promptHash),
   ("status".toList, .text r.status.name),
   ("turns".toList, .number (.nat r.turns)),
   ("files_written".toList, .array (r.filesWritten.map .text)),
   ("start_time".toList, .text r.startTime),
   ("end_time".toList, .text r.endTime),
   ("duration_secs".toList, .number (.float r.seconds)),
   ("error".toList, optionalText r.error)]

theorem toJson_eq (r : TaskRecord) : r.toJson = .object r.members := rfl

theorem reads_optionalText (t : Option Text) : FieldKind.optionalText.Reads (optionalText t) := by
  cases t with
  | none => exact FieldKind.reads_null
  | some t => exact FieldKind.reads_optionalText t

/-- Every member of a record is a field of its form. -/
theorem hasMember (hturns : r.turns < 2 ^ 32)
    (hseconds : FieldKind.float.Reads (.number (.float r.seconds))) :
    ∀ m ∈ r.members, form.HasMember m := by
  have hstatus : r.status.name ∈ TaskStatus.all.map TaskStatus.name := by
    refine List.mem_map_of_mem ?_
    rcases r.status with (_ | _ | _ | _) | _ <;> decide
  simp only [members, List.forall_mem_cons]
  refine ⟨⟨⟨_, .text⟩, rfl, FieldKind.reads_text _⟩, ⟨⟨_, .text⟩, rfl, FieldKind.reads_text _⟩,
    ⟨⟨_, .optionalText⟩, rfl, reads_optionalText _⟩, ⟨⟨_, .text⟩, rfl, FieldKind.reads_text _⟩,
    ⟨⟨_, .optionalText⟩, rfl, reads_optionalText _⟩, ⟨⟨_, .oneOf _⟩, rfl, FieldKind.reads_oneOf hstatus⟩,
    ⟨⟨_, .word⟩, rfl, FieldKind.reads_word hturns⟩, ⟨⟨_, .texts⟩, rfl, FieldKind.reads_texts _⟩,
    ⟨⟨_, .text⟩, rfl, FieldKind.reads_text _⟩, ⟨⟨_, .text⟩, rfl, FieldKind.reads_text _⟩,
    ⟨⟨_, .float⟩, rfl, hseconds⟩, ⟨⟨_, .optionalText⟩, rfl, reads_optionalText _⟩, by simp⟩

theorem text?_optionalText (t : Option Text) : (optionalText t).text? = t := by
  cases t with
  | none => rfl
  | some t => rfl

theorem texts?_map_text (ts : List Text) : texts? (.array (ts.map .text)) = some ts := by
  induction ts with
  | nil => rfl
  | cons t ts ih =>
    have hts : (ts.map Json.text).mapM Json.text? = some ts := ih
    simp [texts?, List.mapM_cons, Json.text?, hts]

/-- A record is what its members hold. -/
theorem ofValues_members (r : TaskRecord) : ofValues r.members = r := by
  have hstatus : (TaskStatus.ofName? r.status.name).getD .failed = r.status := by
    rw [TaskStatus.ofName?_name]
    rfl
  have hfiles : (texts? (.array (r.filesWritten.map .text))).getD [] = r.filesWritten := by
    rw [texts?_map_text]
    rfl
  rw [ofValues, TaskRecord.mk.injEq]
  exact ⟨rfl, rfl, text?_optionalText _, rfl, text?_optionalText _, hstatus, rfl, hfiles, rfl, rfl,
    rfl, text?_optionalText _⟩

/-- A record reads as itself, whatever texts it holds. -/
theorem read_pretty (hturns : r.turns < 2 ^ 32)
    (hseconds : FieldKind.float.Reads (.number (.float r.seconds))) :
    read (r.toJson.pretty ++ [Text.lf]) = .ok r := by
  have hnames : (r.members.map Prod.fst).Nodup := by
    rw [members]
    simp only [List.map_cons, List.map_nil]
    decide
  have hread := RecordForm.read_pretty (by simp [members]) (hasMember hturns hseconds) hnames rfl
  rw [read, toJson_eq, hread, Except.map, ofValues_members]

/-! ## Files -/

section Files

variable {d d' : Disk} {loc sub : Location} {dir name : Text} {x : Except Failure Unit}

/-- The bytes of the file of a record. -/
def bytes (r : TaskRecord) : ByteArray := Text.toBytes (r.toJson.pretty ++ [Text.lf])

/-- A record is loaded from its file. -/
theorem load_of_find {path : Text} (h : d.find path = .ok (loc, .file r.bytes))
    (hturns : r.turns < 2 ^ 32) (hseconds : FieldKind.float.Reads (.number (.float r.seconds))) :
    load path d = .ok r := by
  have hread : d.readText path = .ok (r.toJson.pretty ++ [Text.lf]) :=
    Disk.readText_eq_ok.2 ⟨loc, r.bytes, (Disk.find_eq_ok.1 h).1, (Disk.find_eq_ok.1 h).2,
      Text.ofBytes?_toBytes _⟩
  rw [load, hread]
  dsimp only
  rw [read_pretty hturns hseconds]

/-- A record that was saved stands in a file in its directory. -/
theorem save_spec (hname : Path.IsName name) (h : r.save (Path.join dir name) d = (.ok (), d')) :
    d'.find (Path.join dir name)
        = .ok (Disk.destination d.home dir ++ [name], .file r.bytes) ∧
      d'.node? (Disk.destination d.home dir) = some .dir := by
  rw [save] at h
  split at h
  · cases h
  rename_i u d₁ hmake
  have hhome := (Disk.makeDirs_keeps hmake).home
  split at h
  · cases h
  rename_i d₂ hwrite
  cases h
  obtain ⟨place, hwalk, hfree, rfl⟩ := Disk.writeBytes_eq_ok.1 hwrite
  have hput : Disk.Keeps (· = place) d₁ (d₁.put place (.file r.bytes)) := .put hfree
  have hplace := Disk.destination_of_walk hwalk
  rw [hname.destination_join, hhome] at hplace
  refine ⟨Disk.find_eq_ok.2 ⟨hplace ▸ hput.walk hwalk, hplace ▸ Disk.node?_put_self ..⟩, ?_⟩
  -- what leads to the file was walked
  have hfront : Path.pieces dir <+: Path.pieces (Path.join dir name) := by
    rw [hname.pieces_join]
    exact List.prefix_append ..
  have hdir := Disk.dirs_of_walk hwalk hfront (by simp [hname.pieces_join])
  rw [Disk.start, hname.isAbsolute_join, hhome] at hdir
  exact hput.dirs _ hdir

/-- Saving a record into a part of a directory changes that part only. -/
theorem save_grows (hname : Path.IsName name) (henters : d.Enters sub (Path.join dir name))
    (h : r.save (Path.join dir name) d = (x, d')) : Disk.Grows loc sub d d' := by
  obtain ⟨above, habove, -⟩ := hname.exists_parent?_join dir
  have hway := henters.along (Path.along_parent? habove)
  rw [save, habove, Option.getD_some] at h
  split at h
  · rename_i e d₁ hmake
    cases h
    exact Disk.makeDirs_grows hmake hway
  rename_i u d₁ hmake
  have hmade : Disk.Grows loc sub d d₁ := Disk.makeDirs_grows hmake hway
  split at h
  · cases h
    exact hmade
  · rename_i d₂ hwrite
    cases h
    exact hmade.trans (Disk.writeBytes_grows hwrite (henters.of_keeps hmade.keeps))

end Files

end TaskRecord

end Mend
