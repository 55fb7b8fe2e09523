import Mend.Proofs.Session.Journal
import Mend.Session.Script
import Mend.Store.Memory

/-!
# What a session changes

With files in memory, a session that ends without a failure changes the files that it reports and no
others, and leaves each of them with the content of the last write to it that succeeded
(`Session.run_changes`). The generator and the disk of the logs are arbitrary, and any writes may be
denied.
-/

namespace Mend

variable {υ : Type}

/-- Files in memory, and a generator and a disk for the logs that leave them alone. -/
def Surroundings.inMemory (send : List Message → υ → Except Failure Text × υ)
    (onDisk : (Disk → Except Failure Unit × Disk) → υ → Except Failure Unit × υ) :
    Surroundings (MemoryFiles × υ) where
  send messages w :=
    let (x, u) := send messages w.2
    (x, w.1, u)
  store := MemoryFiles.store.onPart Prod.fst fun w m => (m, w.2)
  onDisk op w :=
    let (x, u) := onDisk op w.2
    (x, w.1, u)

/-- The contents that a journal leaves of those before it. -/
def MemoryFiles.Follows (before : MemoryFiles) (journal : List Write) (m : MemoryFiles) : Prop :=
  ∀ path, m.content? path = (Write.last? journal path).or (before.content? path)

namespace MemoryFiles.Follows

variable {before m : MemoryFiles} {journal : List Write}

theorem refl (m : MemoryFiles) : m.Follows [] m := fun _ => rfl

theorem denied (h : before.Follows journal m) (file : PatchedFile) :
    before.Follows (journal ++ [⟨file, false⟩]) m := by
  intro path
  rw [Write.last?_failed]
  exact h path

theorem put (h : before.Follows journal m) (file : PatchedFile) :
    before.Follows (journal ++ [⟨file, true⟩]) (m.put file.path file.content) := by
  intro path
  rw [Write.last?_succeeded]
  by_cases heq : file.path = path
  · subst heq
    rw [MemoryFiles.content?_put_self, if_pos rfl]
    rfl
  · rw [MemoryFiles.content?_put_ne _ (Ne.symm heq), if_neg heq]
    exact h path

theorem write (h : before.Follows journal m) (path content : Text) :
    before.Follows (journal ++ [⟨⟨path, content⟩, (store.write path content m).1.toBool⟩])
      (store.write path content m).2 := by
  rcases hwrite : store.write path content m with ⟨x, m'⟩
  rcases write_cases hwrite with ⟨-, rfl, rfl⟩ | ⟨-, rfl, rfl⟩
  · exact h.denied ⟨path, content⟩
  · exact h.put ⟨path, content⟩

end MemoryFiles.Follows

/-- Whatever is done in these surroundings, the journal says what the files are. -/
theorem Surroundings.simulates_inMemory (send : List Message → υ → Except Failure Text × υ)
    (onDisk : (Disk → Except Failure Unit × Disk) → υ → Except Failure Unit × υ)
    (before : MemoryFiles) :
    (inMemory send onDisk).journaled.Simulates (fun v v' => v = v' ∧ before.Follows v.2 v.1.1)
      (inMemory send onDisk).journaled := by
  refine ⟨?_, ⟨⟨?_, ?_, ?_⟩, ?_⟩, ?_⟩
  · rintro messages v _ ⟨rfl, h⟩
    exact ⟨rfl, rfl, h⟩
  · rintro path v _ ⟨rfl, h⟩
    exact ⟨rfl, rfl, h⟩
  · rintro path depth v _ ⟨rfl, h⟩
    exact ⟨rfl, rfl, h⟩
  · rintro path v _ ⟨rfl, h⟩
    exact ⟨rfl, rfl, h⟩
  · rintro path content v _ ⟨rfl, h⟩
    exact ⟨rfl, rfl, h.write path content⟩
  · rintro op v _ ⟨rfl, h⟩
    exact ⟨rfl, rfl, h⟩

namespace Session

/-- What a session changes in files in memory, given the journal of its writes. -/
structure Changes {ω : Type} (s : Session) (env : Surroundings ω) (p₀ : Round (ω × List Write))
    (journal : List Write) (m m' : MemoryFiles) (o : Outcome) : Prop where
  nodup : o.written.Nodup
  /-- The paths are reported in the order of the first writes that succeeded. -/
  written_eq : o.written = ((journal.filter Write.ok).map fun w => w.file.path).eraseDups
  unchanged : ∀ path, path ∉ o.written → m'.content? path = m.content? path
  /-- The last write that succeeded decides. -/
  changed : ∀ path ∈ o.written, ∃ before content after,
    journal = before ++ ⟨⟨path, content⟩, true⟩ :: after ∧
    (∀ w ∈ after, w.ok = true → w.file.path ≠ path) ∧
    m'.content? path = some content ∧ s.Emits env p₀ before ⟨⟨path, content⟩, true⟩

/-- A session changes what it reports and nothing else. -/
theorem run_changes (send : List Message → υ → Except Failure Text × υ)
    (onDisk : (Disk → Except Failure Unit × Disk) → υ → Except Failure Unit × υ) (s : Session)
    (prompt : Text) (m : MemoryFiles) (u : υ) {o : Outcome}
    (h : (s.run (.inMemory send onDisk) prompt (m, u)).1 = .ok o) :
    s.Changes (.inMemory send onDisk) (s.start prompt ((m, u), []))
      (s.run (Surroundings.inMemory send onDisk).journaled prompt ((m, u), [])).2.2 m
      (s.run (.inMemory send onDisk) prompt (m, u)).2.1 o := by
  -- the session with a journal has the same outcome and leaves the same files
  obtain ⟨hresult, hworld⟩ := s.run_journaled (.inMemory send onDisk) prompt (m, u) []
  have hfollows := (run_agrees (Surroundings.simulates_inMemory send onDisk m) s prompt
    (w := ((m, u), [])) ⟨rfl, .refl m⟩).rel.2
  rw [h] at hresult
  rw [hworld]
  obtain ⟨es, q, calls, hes, hstops⟩ := s.exists_exchanges
    (Surroundings.inMemory send onDisk).journaled s.config.maxTurns (s.opening prompt) ((m, u), [])
  change s.Stops _ q calls (s.run _ prompt ((m, u), [])) at hstops
  generalize s.run (Surroundings.inMemory send onDisk).journaled prompt ((m, u), []) = result
    at hresult hfollows hstops ⊢
  obtain ⟨_, v⟩ := result
  obtain rfl : Except.ok o = _ := hresult
  obtain ⟨hjournal, hwritten⟩ := hstops.journal
  have hreports : q.conversation.Reports v.2 :=
    hjournal ▸ hes.reports ⟨List.nodup_nil, rfl⟩
  have heq : o.written = Write.paths v.2 := hwritten.trans hreports.written_eq
  refine ⟨hwritten ▸ hreports.nodup, heq, fun path hpath => ?_, fun path hpath => ?_⟩
  · rw [hfollows path, Write.last?_eq_none (heq ▸ hpath), Option.none_or]
  · obtain ⟨before, content, after, hsplit, hafter, hlast⟩ := Write.exists_last (heq ▸ hpath)
    refine ⟨before, content, after, hsplit, hafter, ?_, ?_⟩
    · rw [hfollows path, hlast, Option.some_or]
    · -- nothing is written after the last exchange, so each write is in one of the turns
      refine hes.emits List.nil_prefix ?_
      rw [← hjournal, hsplit]
      exact ⟨after, by simp⟩

/-- A reply with a patch for two files. -/
def twoFiles : Text :=
  Tag.patch.marker ++ "\n--- a/f\n+++ b/f\n@@ -1 +1 @@\n-x\n+y\n--- a/g\n+++ b/g\n@@ -1 +1 @@\n-x\n+y".toList

/-- Two files are patched, of which one cannot be written. -/
theorem run_changes_sample :
    let env := Surroundings.inMemory Script.send fun _ u => (.ok (), u)
    let s : Session := ⟨{ maxTurns := 2 }, []⟩
    let m : MemoryFiles := ⟨[(['f'], ['x', '\n']), (['g'], ['x', '\n'])], [['g']], []⟩
    let u : Script := ⟨[.ok twoFiles, .ok Tag.finMarker], []⟩
    ∃ o, (s.run env [] (m, u)).1 = .ok o ∧ o.written = [['f']] ∧
      s.Changes env (s.start [] ((m, u), [])) (s.run env.journaled [] ((m, u), [])).2.2 m
        (s.run env [] (m, u)).2.1 o := by
  intro env s m u
  have hwritten : (s.run env [] (m, u)).1.toOption.map Outcome.written = some [['f']] := by
    decide +kernel
  cases hrun : (s.run env [] (m, u)).1 with
  | error f =>
    rw [hrun] at hwritten
    cases hwritten
  | ok o =>
    rw [hrun] at hwritten
    exact ⟨o, rfl, Option.some.inj hwritten, run_changes Script.send _ s [] m u hrun⟩

end Session

end Mend
