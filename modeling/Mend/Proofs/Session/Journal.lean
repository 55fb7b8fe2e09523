import Mend.Proofs.Session.Moments

/-!
# The journal of a session

Surroundings may keep a journal of the writes of a session (`Surroundings.journaled`), which changes
nothing else (`Session.run_journaled`). The paths that a session reports are those of the writes that
succeeded (`Session.reports_of_run`), and each write is made in a turn whose patch the engine accepts
and is one of the files that it produces (`Session.emits_of_run`).
-/

namespace Mend

/-- A write: the file, and whether it succeeded. -/
structure Write where
  file : PatchedFile
  ok : Bool
  deriving DecidableEq, Repr

namespace Write

/-- The paths of the writes that succeeded, each once, in the order of the first ones. -/
def paths (journal : List Write) : List Text :=
  ((journal.filter Write.ok).map fun w => w.file.path).eraseDups

/-- The content of the last write to a path that succeeded. -/
def last? (journal : List Write) (path : Text) : Option Text :=
  (journal.reverse.find? fun w => w.ok && w.file.path = path).map fun w => w.file.content

variable {journal : List Write} {path content : Text}

theorem mem_paths : path ∈ paths journal ↔ ∃ w ∈ journal, w.ok = true ∧ w.file.path = path := by
  simp [paths, List.mem_eraseDups, and_assoc]

@[simp]
theorem paths_failed (journal : List Write) (file : PatchedFile) :
    paths (journal ++ [⟨file, false⟩]) = paths journal := by
  simp [paths]

theorem paths_succeeded (journal : List Write) (file : PatchedFile) :
    paths (journal ++ [⟨file, true⟩])
      = if file.path ∈ paths journal then paths journal else paths journal ++ [file.path] := by
  -- of the paths behind others, those that are new count
  rw [paths, paths, List.filter_append, List.map_append, List.eraseDups_append]
  by_cases hmem : file.path ∈ (journal.filter Write.ok).map fun w => w.file.path
  · rw [if_pos (List.mem_eraseDups.2 hmem)]
    simp [List.removeAll, hmem]
  · rw [if_neg fun h => hmem (List.mem_eraseDups.1 h)]
    simp [List.removeAll, hmem, List.eraseDups_cons]

@[simp]
theorem last?_failed (journal : List Write) (file : PatchedFile) (path : Text) :
    last? (journal ++ [⟨file, false⟩]) path = last? journal path := by
  simp [last?]

theorem last?_succeeded (journal : List Write) (file : PatchedFile) (path : Text) :
    last? (journal ++ [⟨file, true⟩]) path
      = if file.path = path then some file.content else last? journal path := by
  by_cases h : file.path = path
  · simp [last?, h]
  · simp [last?, h]

/-- Nothing is written to the other paths. -/
theorem last?_eq_none (h : path ∉ paths journal) : last? journal path = none := by
  rw [mem_paths] at h
  simpa [last?] using h

/-- After the last write to a path that succeeded no other one does. -/
theorem exists_last (h : path ∈ paths journal) : ∃ before content after,
    journal = before ++ ⟨⟨path, content⟩, true⟩ :: after ∧
    (∀ w ∈ after, w.ok = true → w.file.path ≠ path) ∧ last? journal path = some content := by
  have hfound : (journal.reverse.find? fun w => w.ok && w.file.path = path).isSome = true := by
    obtain ⟨w, hw, hok, hpath⟩ := mem_paths.1 h
    rw [List.find?_isSome]
    exact ⟨w, List.mem_reverse.2 hw, by simp [hok, hpath]⟩
  -- the first one from behind is the last one
  obtain ⟨⟨⟨path', content⟩, ok⟩, hw⟩ := Option.isSome_iff_exists.1 hfound
  obtain ⟨hthis, after, before, hsplit, hafter⟩ := List.find?_eq_some_iff_append.1 hw
  obtain ⟨rfl, rfl⟩ : ok = true ∧ path' = path := by simpa using hthis
  refine ⟨before.reverse, content, after.reverse, ?_, ?_, ?_⟩
  · rw [← List.reverse_inj, hsplit]
    simp
  · intro w hwmem hok hpath
    have hnot := hafter w (List.mem_reverse.1 hwmem)
    simp [hok, hpath] at hnot
  · rw [last?, hw]
    rfl

end Write

/-! ## Keeping a journal -/

variable {ω : Type}

/-- A store that keeps a journal of its writes. -/
def Store.journaled (store : Store ω) : Store (ω × List Write) where
  read path v :=
    let (x, w) := store.read path v.1
    (x, w, v.2)
  write path content v :=
    let (x, w) := store.write path content v.1
    (x, w, v.2 ++ [⟨⟨path, content⟩, x.toBool⟩])
  list path depth v :=
    let (x, w) := store.list path depth v.1
    (x, w, v.2)
  suggest path v :=
    let (x, w) := store.suggest path v.1
    (x, w, v.2)

/-- Surroundings that keep a journal of the writes. -/
def Surroundings.journaled (env : Surroundings ω) : Surroundings (ω × List Write) where
  send messages v :=
    let (x, w) := env.send messages v.1
    (x, w, v.2)
  store := env.store.journaled
  onDisk op v :=
    let (x, w) := env.onDisk op v.1
    (x, w, v.2)

theorem Store.readsAlike_journaled (store : Store ω) (journal : List Write) :
    store.journaled.ReadsAlike (fun v w => w = v.1 ∧ v.2 = journal) store := by
  refine ⟨?_, ?_, ?_⟩
  all_goals
    intros
    rename_i hvw
    obtain ⟨rfl, hjournal⟩ := hvw
    exact ⟨rfl, rfl, hjournal⟩

theorem Surroundings.simulates_journaled (env : Surroundings ω) :
    env.journaled.Simulates (fun v w => w = v.1) env := by
  refine ⟨?_, ⟨⟨?_, ?_, ?_⟩, ?_⟩, ?_⟩
  all_goals
    intros
    rename_i hvw
    obtain rfl := hvw
    exact ⟨rfl, rfl⟩

/-- The journal changes neither the result of a session nor its world. -/
theorem Session.run_journaled (s : Session) (env : Surroundings ω) (prompt : Text) (w : ω)
    (journal : List Write) :
    (s.run env prompt w).1 = (s.run env.journaled prompt (w, journal)).1 ∧
      (s.run env prompt w).2 = (s.run env.journaled prompt (w, journal)).2.1 := by
  have h := Session.run_agrees env.simulates_journaled s prompt (w := (w, journal)) rfl
  exact ⟨h.eq.symm, h.rel⟩

/-! ## Reactions -/

/-- The paths that a conversation reports are those of the journal. -/
structure Conversation.Reports (c : Conversation) (journal : List Write) : Prop where
  nodup : c.written.Nodup
  written_eq : c.written = Write.paths journal

namespace Conversation.Reports

variable {c c' : Conversation} {journal : List Write}

theorem congr (h : c.Reports journal) (hwritten : c'.written = c.written) : c'.Reports journal :=
  ⟨hwritten ▸ h.nodup, hwritten ▸ h.written_eq⟩

theorem failed (h : c.Reports journal) (file : PatchedFile) :
    c.Reports (journal ++ [⟨file, false⟩]) :=
  ⟨h.nodup, by rw [Write.paths_failed, h.written_eq]⟩

theorem wrote (h : c.Reports journal) (file : PatchedFile) :
    (c.wrote file.path file.content).Reports (journal ++ [⟨file, true⟩]) := by
  by_cases hmem : file.path ∈ c.written
  · have hwritten : (c.wrote file.path file.content).written = c.written := by
      rw [Conversation.wrote, recordWritten, if_pos hmem]
    refine ⟨hwritten ▸ h.nodup, ?_⟩
    rw [hwritten, Write.paths_succeeded, ← h.written_eq, if_pos hmem]
  · have hwritten : (c.wrote file.path file.content).written = c.written ++ [file.path] := by
      rw [Conversation.wrote, recordWritten, if_neg hmem]
    refine ⟨?_, ?_⟩
    · rw [hwritten]
      refine List.nodup_append.2 ⟨h.nodup, List.nodup_cons.2 ⟨List.not_mem_nil, .nil⟩, ?_⟩
      rintro path hpath _ hfile rfl
      rw [List.mem_singleton] at hfile
      exact hmem (hfile ▸ hpath)
    · rw [hwritten, Write.paths_succeeded, ← h.written_eq, if_neg hmem]

end Conversation.Reports

namespace Reaction

variable {store : Store ω} {c c' : Conversation} {v v' : ω × List Write}

/-- Serving requests writes nothing. -/
theorem serve_journal {cfg : Config} {requests : List Request} {r : Reaction}
    (h : serve store.journaled cfg requests c v = (r, c', v')) :
    v'.2 = v.2 ∧ c'.written = c.written := by
  have hagrees := serve_agrees (store.readsAlike_journaled v.2) cfg requests c (w := v) ⟨rfl, rfl⟩
  rw [h] at hagrees
  rw [serve, Prod.mk.injEq, Prod.mk.injEq] at h
  refine ⟨hagrees.rel.rel.2, ?_⟩
  rw [← h.2.1]

/-- Neither does the engine. -/
theorem apply_journal {strict : Bool} {patch : Text} {x : Except PatchError ApplyResult}
    {cache cache' : Cache}
    (h : Patch.apply strict (load store.journaled) patch (cache, v) = (x, cache', v')) :
    v'.2 = v.2 := by
  have hstart : Agrees (fun v w => w = v.1 ∧ v.2 = _) (cache, v) (cache, v.1) :=
    .of_rel ⟨rfl, rfl⟩ cache
  have hagrees :=
    Patch.apply_agrees (load_agrees (store.readsAlike_journaled v.2)) strict patch hstart
  rw [h] at hagrees
  exact hagrees.rel.rel.2

theorem deliverOne_journal {file : PatchedFile} {d d' : Delivery}
    (h : deliverOne store.journaled file d c v = (d', c', v')) :
    ∃ ok, v'.2 = v.2 ++ [⟨file, ok⟩] ∧ (c.Reports v.2 → c'.Reports v'.2) := by
  rcases hwrite : store.write file.path file.content v.1 with ⟨f | done, w⟩
  · have hjournaled : store.journaled.write file.path file.content v
        = (.error f, w, v.2 ++ [⟨file, false⟩]) := by
      simp only [Store.journaled, hwrite]
      rfl
    rw [deliverOne, hjournaled] at h
    cases h
    exact ⟨false, rfl, fun hreports => hreports.failed file⟩
  · have hjournaled : store.journaled.write file.path file.content v
        = (.ok done, w, v.2 ++ [⟨file, true⟩]) := by
      simp only [Store.journaled, hwrite]
      rfl
    rw [deliverOne, hjournaled] at h
    cases h
    exact ⟨true, rfl, fun hreports => hreports.wrote file⟩

/-- The files are written in their order, and what is reported stays right. -/
theorem deliver_journal {files : List PatchedFile} {d d' : Delivery}
    (h : deliver store.journaled files d c v = (d', c', v')) :
    ∃ made, v'.2 = v.2 ++ made ∧ made.map Write.file = files ∧
      (c.Reports v.2 → c'.Reports v'.2) := by
  induction files generalizing d c v with
  | nil =>
    cases h
    exact ⟨[], (List.append_nil _).symm, rfl, fun hreports => hreports⟩
  | cons file rest ih =>
    rw [deliver] at h
    rcases hone : deliverOne store.journaled file d c v with ⟨d₁, c₁, v₁⟩
    rw [hone] at h
    obtain ⟨ok, hv₁, hreports₁⟩ := deliverOne_journal hone
    obtain ⟨made, hv', hmade, hreports'⟩ := ih h
    refine ⟨⟨file, ok⟩ :: made, ?_, ?_, fun hreports => hreports' (hreports₁ hreports)⟩
    · rw [hv', hv₁, List.append_assoc, List.singleton_append]
    · rw [List.map_cons, hmade]

end Reaction

/-! ## Turns -/

namespace Session

/-- The engine accepts the patch of an action. -/
inductive Accepts (s : Session) (env : Surroundings ω) : Action → Conversation → ω → ApplyResult → Prop
  | intro {patch : Text} {c : Conversation} {w : ω} {result : ApplyResult} {state : Cache × ω}
      (happly : Patch.apply s.config.strictContext (Reaction.load env.store) patch (c.cache, w)
        = (.ok result, state)) : Accepts s env (.applyPatch patch) c w result

variable {s : Session} {env : Surroundings ω}

/-- A reaction writes nothing, or the files of a patch that the engine accepts. -/
theorem react_journal {action : Action} {c c' : Conversation} {v v' : ω × List Write}
    {x : Except DoneReason (Text × Reaction)}
    (h : s.react env.journaled action c v = (x, c', v')) :
    ∃ made, v'.2 = v.2 ++ made ∧ (c.Reports v.2 → c'.Reports v'.2) ∧
      (made = [] ∨ ∃ result, s.Accepts env.journaled action c v result ∧
        made.map Write.file = result.files) := by
  cases action with
  | done reason =>
    cases h
    exact ⟨[], (List.append_nil _).symm, fun hreports => hreports, .inl rfl⟩
  | requestFiles requests =>
    rcases hserve : Reaction.serve env.journaled.store s.config requests c v with ⟨r, c₁, v₁⟩
    rw [react, hserve] at h
    cases h
    obtain ⟨hjournal, hwritten⟩ := Reaction.serve_journal hserve
    rw [hjournal]
    exact ⟨[], (List.append_nil _).symm, fun hreports => hreports.congr hwritten, .inl rfl⟩
  | applyPatch patch =>
    rcases hpatch : Reaction.applyPatch env.journaled.store s.config patch c v with ⟨r, c₁, v₁⟩
    rw [react, hpatch] at h
    cases h
    rw [Reaction.applyPatch] at hpatch
    rcases happly : Patch.apply s.config.strictContext (Reaction.load env.journaled.store) patch
      (c.cache, v) with ⟨err | result, cache, v₂⟩
    -- a rejected patch has only been read
    · rw [happly, Prod.mk.injEq, Prod.mk.injEq] at hpatch
      obtain ⟨-, rfl, rfl⟩ := hpatch
      rw [Reaction.apply_journal happly]
      exact ⟨[], (List.append_nil _).symm, fun hreports => hreports.congr rfl, .inl rfl⟩
    · rw [happly] at hpatch
      dsimp only at hpatch
      rcases hdeliver : Reaction.deliver env.journaled.store result.files {} { c with cache } v₂
        with ⟨d, c₂, v₃⟩
      rw [hdeliver, Prod.mk.injEq, Prod.mk.injEq] at hpatch
      obtain ⟨-, rfl, rfl⟩ := hpatch
      obtain ⟨made, hv', hmade, hreports⟩ := Reaction.deliver_journal hdeliver
      rw [Reaction.apply_journal happly] at hv' hreports
      exact ⟨made, hv', fun h => hreports (h.congr rfl), .inr ⟨result, .intro happly, hmade⟩⟩
  | followUp kind =>
    cases h
    refine ⟨[], (List.append_nil _).symm, fun hreports => ?_, .inl rfl⟩
    cases kind <;> exact hreports.congr rfl

theorem logged_journal {record : TurnLog → Disk → Except Failure Unit × Disk}
    {v v' : ω × List Write} {x : Except Failure Unit}
    (h : s.logged env.journaled record v = (x, v')) : v'.2 = v.2 :=
  logged_keeps Prod.snd (fun _ _ => rfl) h

theorem finish_journal {c : Conversation} {reason : DoneReason} {v v' : ω × List Write}
    {o : Outcome} (h : s.finish env.journaled c reason v = (.ok o, v')) :
    v'.2 = v.2 ∧ o.written = c.written := by
  rw [finish] at h
  rcases hlogged : s.logged env.journaled (fun log => log.writeTranscript c.messages) v
    with ⟨f | done, v₁⟩
  · rw [hlogged] at h
    cases h
  · rw [hlogged] at h
    cases h
    exact ⟨logged_journal hlogged, rfl⟩

theorem send_journal {messages : List Message} {v v' : ω × List Write} {x : Except Failure Text}
    (h : env.journaled.send messages v = (x, v')) : v'.2 = v.2 := by
  cases h
  rfl

/-- A turn writes nothing, or the files of a patch that the engine accepts in it. -/
theorem Step.journal {p q : Round (ω × List Write)} {e : Exchange}
    (h : s.Step env.journaled p e q) :
    ∃ made, q.world.2 = p.world.2 ++ made ∧
      (p.conversation.Reports p.world.2 → q.conversation.Reports q.world.2) ∧
      (made = [] ∨ ∃ c v result, s.Receives env.journaled p e.action c v ∧
        s.Accepts env.journaled e.action c v result ∧ made.map Write.file = result.files) := by
  cases h with
  | @intro left c c' w w₁ w₂ w₃ reply name r hsend hreact hlog =>
    -- sending the transcript and logging the turn write none of the files
    obtain ⟨made, hmade, hreports, hcases⟩ := react_journal hreact
    rw [send_journal hsend] at hmade hreports
    refine ⟨made, (logged_journal hlog).trans hmade, fun h => ?_, ?_⟩
    · rw [logged_journal hlog]
      exact (hreports (h.congr rfl)).congr rfl
    · rcases hcases with rfl | ⟨result, haccepts, hfiles⟩
      · exact .inl rfl
      · exact .inr ⟨_, _, result, .intro hsend rfl, haccepts, hfiles⟩

theorem Exchanges.reports {p q : Round (ω × List Write)} {es : List Exchange}
    (h : s.Exchanges env.journaled p es q) (hp : p.conversation.Reports p.world.2) :
    q.conversation.Reports q.world.2 := by
  induction h with
  | nil p => exact hp
  | cons step rest ih =>
    obtain ⟨made, -, hreports, -⟩ := step.journal
    exact ih (hreports hp)

theorem Exchanges.journal_prefix {p q : Round (ω × List Write)} {es : List Exchange}
    (h : s.Exchanges env.journaled p es q) : p.world.2 <+: q.world.2 := by
  induction h with
  | nil p => exact List.prefix_rfl
  | cons step rest ih =>
    obtain ⟨made, hmade, -⟩ := step.journal
    exact .trans ⟨made, hmade.symm⟩ ih

/-- A session that ends without a failure writes nothing after its last exchange. -/
theorem Stops.journal {q : Round (ω × List Write)} {calls : List Call} {o : Outcome}
    {v : ω × List Write} (h : s.Stops env.journaled q calls (.ok o, v)) :
    v.2 = q.world.2 ∧ o.written = q.conversation.written := by
  -- the other stops are failures
  generalize hresult : ((.ok o, v) : Except Failure Outcome × ω × List Write) = result at h
  cases h with
  | limit => exact finish_journal hresult.symm
  | sendFails => cases hresult
  | done hsend haction hlog =>
    obtain ⟨hjournal, hwritten⟩ := finish_journal hresult.symm
    rw [logged_journal hlog, send_journal hsend] at hjournal
    exact ⟨hjournal, hwritten⟩
  | logFails => cases hresult

/-- A write that is made in a turn, after the writes `before`: the engine accepts a patch in that
turn, and the file is one that the patch produces. -/
inductive Emits (s : Session) (env : Surroundings ω) (p₀ : Round (ω × List Write))
    (before : List Write) (write : Write) : Prop
  | intro {es : List Exchange} {p q : Round (ω × List Write)} {e : Exchange} {c : Conversation}
      {v : ω × List Write} {result : ApplyResult}
      (hes : s.Exchanges env.journaled p₀ es p) (hstep : s.Step env.journaled p e q)
      (hbefore : p.world.2 <+: before) (hafter : before ++ [write] <+: q.world.2)
      (hreply : s.Receives env.journaled p e.action c v)
      (haccepts : s.Accepts env.journaled e.action c v result) (hfile : write.file ∈ result.files)

/-- What comes behind a prefix of a list. -/
theorem mem_of_prefix_append {front before made : List Write} {write : Write}
    (hfront : front <+: before) (h : before ++ [write] <+: front ++ made) : write ∈ made := by
  obtain ⟨middle, rfl⟩ := hfront
  rw [List.append_assoc, List.prefix_append_right_inj] at h
  exact h.subset (List.mem_append_right _ (List.mem_singleton.2 rfl))

/-- Each write of a session is emitted in one of its turns. -/
theorem Exchanges.emits {p q : Round (ω × List Write)} {es : List Exchange}
    (h : s.Exchanges env.journaled p es q) {before : List Write} {write : Write}
    (hbefore : p.world.2 <+: before) (hafter : before ++ [write] <+: q.world.2) :
    s.Emits env p before write := by
  induction h with
  | nil p =>
    have hlength := (hafter.trans hbefore).length_le
    rw [List.length_append, List.length_singleton] at hlength
    omega
  | @cons p q r e es step rest ih =>
    -- the write is made in the first turn or in a later one
    by_cases hnow : before ++ [write] <+: q.world.2
    · obtain ⟨made, hmade, -, hcases⟩ := step.journal
      rw [hmade] at hnow
      have hmem := mem_of_prefix_append hbefore hnow
      rcases hcases with rfl | ⟨c, v, result, hreply, haccepts, hfiles⟩
      · cases hmem
      · rw [← hmade] at hnow
        have hfile : write.file ∈ result.files := hfiles ▸ List.mem_map_of_mem hmem
        exact .intro (.nil p) step hbefore hnow hreply haccepts hfile
    · -- what is written by then and what comes before the write begin the same journal
      have hq : q.world.2 <+: r.world.2 := rest.journal_prefix
      have hlater : q.world.2 <+: before := by
        refine List.prefix_of_prefix_length_le hq ((List.prefix_append ..).trans hafter) ?_
        refine Nat.le_of_lt_succ (Nat.lt_of_not_le fun hle => hnow ?_)
        exact List.prefix_of_prefix_length_le hafter hq (by simpa using hle)
      obtain ⟨hes, hstep, hb, ha, hreply, haccepts, hfile⟩ := ih hlater hafter
      exact .intro (.cons step hes) hstep hb ha hreply haccepts hfile

end Session

end Mend
