import Mathlib.Control.Monad.Basic
import Mend.Proofs.Session.Invariant
import Mend.Proofs.Session.LogFolders
import Mend.Proofs.Store.Separation

/-!
# The log of a session

A session writes the folder of a turn once its reaction is known, and the transcript when it ends.
Each exchange adds one folder to those before it (`Session.Step.logged`), so a session that ends
without a failure, whatever ends it, has logged every turn and its transcript, and nothing else
(`Session.run_logs`).

It takes a directory for the log with nothing in it, and a store and a generator that leave it alone
(`Session.HasOwnLog`). The store of a directory apart does (`DirectoryStore.leavesLog`).
-/

namespace Mend

variable {ω : Type}

/-! ## Where a log is kept -/

/-- Nothing is changed at a place or below it, and all directories stay. -/
structure Disk.Spares (loc : Location) (d d' : Disk) : Prop where
  home : d'.home = d.home
  dirs : ∀ place, d.node? place = some .dir → d'.node? place = some .dir
  node?_eq : ∀ place, loc <+: place → d'.node? place = d.node? place

/-- The log is written on a disk, and nothing else changes it below a place as long as the
directories of a disk are there. -/
structure Surroundings.LeavesLog (env : Surroundings ω) (disk : ω → Disk) (loc : Location)
    (d : Disk) : Prop where
  onDisk : ∀ op w, (env.onDisk op w).map id disk = op (disk w)
  send : ∀ messages w, Disk.Keeps (fun _ => True) d (disk w) →
    Disk.Spares loc (disk w) (disk (env.send messages w).2)
  serve : ∀ request w, Disk.Keeps (fun _ => True) d (disk w) →
    Disk.Spares loc (disk w) (disk (env.store.serve request w).2)

/-- Changes at one place spare another one apart. -/
theorem Disk.Confined.spares {loc other : Location} {d d' : Disk} (h : Confined loc d d')
    (hapart : Apart loc other) : Spares other d d' where
  home := h.home
  dirs := h.dirs
  node?_eq _ hplace := node?_of_subtree (h.subtree hapart) hplace

/-- A generator, a working directory and the log on one disk, which a repair runs in. -/
def Surroundings.onOneDisk (σ : DirectoryStore)
    (send : List Message → Disk → Except Failure Text × Disk) : Surroundings Disk where
  send
  store := σ.store
  onDisk op d := op d

/-- A working directory apart leaves the log alone. -/
theorem DirectoryStore.leavesLog {σ : DirectoryStore}
    {send : List Message → Disk → Except Failure Text × Disk} {loc other : Location} {d : Disk}
    (hσ : d.find σ.root = .ok (other, .dir)) (hapart : Disk.Apart other loc)
    (hsend : ∀ messages m, Disk.Spares loc m (send messages m).2) :
    (Surroundings.onOneDisk σ send).LeavesLog (fun m => m) loc d where
  onDisk op m := rfl
  send messages m _ := hsend messages m
  serve request m hkeeps := by
    obtain ⟨answer, n, n', hserve, -, hmoved⟩ := serve_agree (.refl (hkeeps.find hσ)) request
    change Disk.Spares loc m (σ.store.serve request m).2
    rw [hserve]
    exact hmoved.confined.spares hapart

/-- A property of the world is kept by a store when every request keeps it. -/
theorem Store.keeps_of_serve {store : Store ω} {I : ω → Prop}
    (h : ∀ request w, I w → I (store.serve request w).2) : store.Keeps fun _ _ w => I w where
  read {path c ws w x w'} _ hread _ hI := by
    have hserve := h (.read (Cache.key path)) w hI
    rwa [serve, hread] at hserve
  found {path content c ws w w'} _ hread hI := by
    have hserve := h (.read (Cache.key path)) w hI
    rwa [serve, hread] at hserve
  list {path depth c ws w x w'} hlist hI := by
    have hserve := h (.list path depth) w hI
    rwa [serve, hlist] at hserve
  suggest {path c ws w x w'} hsuggest hI := by
    have hserve := h (.suggest path) w hI
    rwa [serve, hsuggest] at hserve
  denied {path content c ws w f w'} hwrite hI := by
    have hserve := h (.write path content) w hI
    rwa [serve, hwrite] at hserve
  wrote {path content w w' c} hwrite hI := by
    have hserve := h (.write path content) w hI
    rwa [serve, hwrite] at hserve

namespace Session

/-- A session keeps its log in a directory with nothing in it, which is left alone. -/
structure HasOwnLog (s : Session) (env : Surroundings ω) (disk : ω → Disk) (dir : Text)
    (d : Disk) : Prop where
  logDir : s.config.logDir = some dir
  isName : Path.IsName s.id
  direct : d.Direct dir
  empty : ∀ rest, rest ≠ [] → d.node? (Disk.destination d.home dir ++ rest) = none
  leaves : env.LeavesLog disk (Disk.destination d.home dir) d

/-- The turns of a session so far are in its log, and nothing else. -/
structure Logged (s : Session) (dir : Text) (d : Disk) (rs : List TurnRecord)
    (turns : List (Text × Option Text)) (actions : List Action) (d' : Disk) : Prop where
  keeps : Disk.Keeps (fun _ => True) d d'
  below : d'.Below (Disk.destination d.home dir) (rs.map (TurnLog.turnFolder ⟨dir, s.id⟩))
  recount : TurnRecord.Recount rs turns actions

section Run

variable {s : Session} {env : Surroundings ω} {disk : ω → Disk} {dir : Text} {d : Disk}
  {rs : List TurnRecord} {turns : List (Text × Option Text)} {actions : List Action}

theorem Logged.nil (hown : s.HasOwnLog env disk dir d) : s.Logged dir d [] [] [] d where
  keeps := .refl d
  below rest node hrest := by
    rw [hown.empty rest hrest]
    simp
  recount := .nil

/-- What spares the directory of the log keeps it. -/
theorem Logged.spares {m m' : Disk} (h : s.Logged dir d rs turns actions m)
    (hspares : Disk.Spares (Disk.destination d.home dir) m m') :
    s.Logged dir d rs turns actions m' where
  keeps := h.keeps.trans ⟨hspares.home, hspares.dirs, fun _ _ hnot => absurd trivial hnot⟩
  below rest node hrest := by
    rw [hspares.node?_eq _ (List.prefix_append ..)]
    exact h.below rest node hrest
  recount := h.recount

/-- Writing a turn adds it to the log. -/
theorem Logged.writeTurn (hown : s.HasOwnLog env disk dir d) {m m' : Disk}
    (h : s.Logged dir d rs turns actions m) {r : TurnRecord} {action : Action}
    (hnumber : r.number = turns.length + 1) (haction : r.action = action.label)
    (hturn : r.turn = Turn.parse r.response)
    (hwrite : TurnLog.writeTurn ⟨dir, s.id⟩ r m = (.ok (), m')) :
    s.Logged dir d (rs ++ [r]) (turns ++ [(r.response, r.outbound)]) (actions ++ [action]) m' := by
  have hcompatible : ∀ g ∈ rs.map (TurnLog.turnFolder ⟨dir, s.id⟩),
      (TurnLog.turnFolder ⟨dir, s.id⟩ r).Compatible g := by
    rw [List.forall_mem_map]
    intro r' hr'
    have hle := (h.recount.mem_numbers.1 ⟨r', hr', rfl⟩).2
    exact TurnLog.compatible_turnFolder (by omega)
  obtain ⟨hkeeps, hbelow⟩ := TurnLog.writeDir_below
    (TurnLog.isProper_turnFolder hown.isName r)
    (hown.direct.of_keeps h.keeps) (h.keeps.home ▸ h.below) hcompatible hwrite
  refine ⟨h.keeps.trans hkeeps, ?_, h.recount.concat hnumber haction hturn⟩
  rw [List.map_append, List.map_singleton, ← h.keeps.home]
  exact hbelow

/-- What is written to the log is written on the disk. -/
theorem disk_of_logged (hown : s.HasOwnLog env disk dir d)
    {record : TurnLog → Disk → Except Failure Unit × Disk} {w w' : ω} {x : Except Failure Unit}
    (h : s.logged env record w = (x, w')) : record ⟨dir, s.id⟩ (disk w) = (x, disk w') := by
  rw [logged, log?, hown.logDir] at h
  have hdisk := hown.leaves.onDisk (record ⟨dir, s.id⟩) w
  change env.onDisk _ w = _ at h
  rw [h] at hdisk
  exact hdisk.symm

theorem Logged.send (hown : s.HasOwnLog env disk dir d) {messages : List Message} {w w' : ω}
    {x : Except Failure Text} (hsend : env.send messages w = (x, w'))
    (h : s.Logged dir d rs turns actions (disk w)) : s.Logged dir d rs turns actions (disk w') := by
  have hspares := hown.leaves.send messages w h.keeps
  rw [hsend] at hspares
  exact h.spares hspares

theorem Logged.react (hown : s.HasOwnLog env disk dir d) {action : Action} {c c' : Conversation}
    {w w' : ω} {x : Except DoneReason (Text × Reaction)}
    (hreact : s.react env action c w = (x, c', w')) (h : s.Logged dir d rs turns actions (disk w)) :
    s.Logged dir d rs turns actions (disk w') := by
  have hstore : env.store.Keeps fun _ _ w => s.Logged dir d rs turns actions (disk w) :=
    Store.keeps_of_serve fun request w h => h.spares (hown.leaves.serve request w h.keeps)
  exact react_keeps hstore hreact h

/-- A reaction is named for the action. -/
theorem name_of_react {action : Action} {c c' : Conversation} {w w' : ω} {name : Text}
    {r : Reaction} (h : s.react env action c w = (.ok (name, r), c', w')) :
    name = action.label := by
  cases action with
  | done reason => cases h
  | requestFiles requests =>
    cases h
    rfl
  | applyPatch patch =>
    cases h
    rfl
  | followUp kind =>
    cases h
    rfl

/-- An exchange adds its turn to the log. -/
theorem Step.logged (hown : s.HasOwnLog env disk dir d) {p q : Round ω} {e : Exchange}
    (hstep : s.Step env p e q) (h : s.Logged dir d rs turns actions (disk p.world))
    (hcount : p.conversation.turns = turns.length) :
    ∃ r, s.Logged dir d (rs ++ [r]) (turns ++ [(e.reply, some e.outbound)]) (actions ++ [e.action])
      (disk q.world) := by
  cases hstep with
  | @intro left c c' w w₁ w₂ w₃ reply name r hsend hreact hlog =>
    have hreacted := (h.send hown hsend).react hown hreact
    obtain ⟨cache, written, rfl⟩ := react_conversation hreact
    refine ⟨_, hreacted.writeTurn hown ?_ (name_of_react hreact) rfl (disk_of_logged hown hlog)⟩
    exact congrArg (· + 1) hcount

/-- All exchanges add their turns to the log, in their order. -/
theorem Exchanges.logged (hown : s.HasOwnLog env disk dir d) {p q : Round ω} {es : List Exchange}
    (hes : s.Exchanges env p es q) (h : s.Logged dir d rs turns actions (disk p.world))
    (hcount : p.conversation.turns = turns.length) :
    ∃ rs', s.Logged dir d rs' (turns ++ es.map fun e => (e.reply, some e.outbound))
      (actions ++ es.map Exchange.action) (disk q.world) := by
  induction hes generalizing rs turns actions with
  | nil p => exact ⟨rs, by simpa using h⟩
  | cons step rest ih =>
    obtain ⟨r, hstep⟩ := step.logged hown h hcount
    obtain ⟨rs', hrest⟩ := ih hstep (by rw [step.turns_eq, hcount, List.length_append]; rfl)
    exact ⟨rs', by simpa using hrest⟩

/-- A session that ends adds its transcript to the log. -/
theorem Logged.finish (hown : s.HasOwnLog env disk dir d) {c : Conversation} {reason : DoneReason}
    {w : ω} {o : Outcome} (h : s.Logged dir d rs turns actions (disk w))
    (hcount : c.turns = turns.length) (hreplies : Message.replies c.messages = turns)
    (hok : (s.finish env c reason w).1 = .ok o) :
    s.Logs o actions (Disk.destination d.home dir) (disk (s.finish env c reason w).2) := by
  obtain rfl := eq_outcome_of_finish hok
  rw [Session.finish] at hok ⊢
  rcases hlog : s.logged env (fun log => log.writeTranscript c.messages) w with ⟨f | ⟨⟨⟩⟩, w'⟩
  · rw [hlog] at hok
    cases hok
  have hcompatible : ∀ g ∈ rs.map (TurnLog.turnFolder ⟨dir, s.id⟩),
      (TurnLog.sessionFolder ⟨dir, s.id⟩ c.messages).Compatible g :=
    List.forall_mem_map.2 fun r hr => TurnLog.compatible_sessionFolder
  have hbelow := (TurnLog.writeDir_below
    (TurnLog.isProper_sessionFolder hown.isName c.messages)
    (hown.direct.of_keeps h.keeps) (h.keeps.home ▸ h.below) hcompatible
    (disk_of_logged hown hlog)).2
  rw [h.keeps.home] at hbelow
  subst hreplies
  exact logs_of_below h.recount hcount hbelow

/-- The actions that a session took in exchanges, and the one that ended it. -/
def taken (es : List Exchange) (o : Outcome) : List Action :=
  es.map Exchange.action ++ if o.reason = .turnLimitExceeded then [] else [.done o.reason]

/-- How a session stops, what was said in the exchanges before is in its log then. -/
theorem Stops.logs {prompt : Text} {w : ω} (hown : s.HasOwnLog env disk dir (disk w))
    {es : List Exchange} {q : Round ω} {calls : List Call} {o : Outcome}
    {result : Except Failure Outcome × ω} (hes : s.Exchanges env (s.start prompt w) es q)
    (hstops : s.Stops env q calls result) (hok : result.1 = .ok o) :
    s.Logs o (taken es o) (Disk.destination (disk w).home dir) (disk result.2) := by
  obtain ⟨rs, hlogged⟩ := hes.logged hown (.nil hown) rfl
  rw [List.nil_append, List.nil_append] at hlogged
  have hmessages := messages_eq_of_start hes
  have hcount : q.conversation.turns
      = (es.map fun e => (e.reply, some e.outbound)).length := by
    rw [turns_eq_of_start hes, List.length_map]
  have hreplies : ∀ last, Message.replies (s.transcript prompt (es.map Exchange.turn) last)
      = es.map (fun e => (e.reply, some e.outbound)) ++ last.toList.map fun t => (t, none) := by
    intro last
    rw [Message.replies_transcript, List.map_map]
    rfl
  cases hstops with
  | @limit c w' =>
    obtain rfl := eq_outcome_of_finish hok
    have htaken : taken es (s.outcome c .turnLimitExceeded) = es.map Exchange.action :=
      List.append_nil _
    rw [htaken]
    refine hlogged.finish hown hcount ?_ hok
    rw [hmessages, hreplies none]
    exact List.append_nil _
  | sendFails hsend => cases hok
  | @done left c w' w₁ w₂ reply reason hsend haction hlog =>
    obtain rfl := eq_outcome_of_finish hok
    have htaken : taken es (s.outcome (c.receive reply) reason)
        = es.map Exchange.action ++ [.done reason] :=
      congrArg _ (if_neg (ne_turnLimitExceeded haction))
    have htranscript : (c.receive reply).messages
        = s.transcript prompt (es.map Exchange.turn) (some reply) := by
      rw [Conversation.receive, hmessages, transcript, transcript]
      simp
    have hlabel : "done:".toList ++ reason.name = (Action.done reason).label := rfl
    have hlast := (hlogged.send hown hsend).writeTurn hown (congrArg (· + 1) hcount) hlabel rfl
      (disk_of_logged hown hlog)
    rw [htaken]
    refine hlast.finish hown ?_ ?_ hok
    · rw [List.length_append]
      exact congrArg (· + 1) hcount
    · rw [htranscript, hreplies (some reply)]
      rfl
  | logFails hsend hreact hlog => cases hok

/-- A session that ends without a failure has logged every turn and its transcript, and nothing
else. -/
theorem run_logs {prompt : Text} {w : ω} {o : Outcome} (hown : s.HasOwnLog env disk dir (disk w))
    (hok : (s.run env prompt w).1 = .ok o) :
    ∃ es q calls, s.Exchanges env (s.start prompt w) es q ∧
      s.Stops env q calls (s.run env prompt w) ∧
      s.Logs o (taken es o) (Disk.destination (disk w).home dir)
        (disk (s.run env prompt w).2) := by
  obtain ⟨es, q, calls, hes, hstops⟩ :=
    s.exists_exchanges env s.config.maxTurns (s.opening prompt) w
  exact ⟨es, q, calls, hes, hstops, hstops.logs hown hes hok⟩

end Run

/-- A disk with a working directory and a directory for logs. -/
def sampleShelves : Disk where
  entries := [([], .dir), ([['t']], .dir), ([['l']], .dir), ([['t'], ['f']], .file "x".toUTF8)]
  home := []

/-- A session that logs what it is shown of the working directory. -/
def sampleLogger : Session := ⟨{ maxTurns := 2, logDir := some "/l".toList }, ['s']⟩

/-- A generator that requests a file and is content with it. -/
def sampleReader (messages : List Message) (d : Disk) : Except Failure Text × Disk :=
  (.ok (if messages.length = 2 then
    "%_Reply Required_%\n[\x7b\"type\":\"FILE_CONTENT\",\"path\":\"f\"\x7d]".toList
    else Tag.finMarker), d)

theorem run_logs_sample :
    let env := Surroundings.onOneDisk ⟨"/t".toList, 100⟩ sampleReader
    sampleLogger.HasOwnLog env (fun m => m) "/l".toList sampleShelves ∧
      ∃ o, (sampleLogger.run env [] sampleShelves).1 = .ok o ∧ o.turns = 2 ∧
        ∃ es q calls, sampleLogger.Exchanges env (sampleLogger.start [] sampleShelves) es q ∧
          sampleLogger.Stops env q calls (sampleLogger.run env [] sampleShelves) ∧
          sampleLogger.Logs o (taken es o) [['l']] (sampleLogger.run env [] sampleShelves).2 := by
  intro env
  have hroot : sampleShelves.find "/t".toList = .ok ([['t']], .dir) := by decide +kernel
  have hlog : sampleShelves.find "/l".toList = .ok ([['l']], .dir) := by decide +kernel
  have hdest : Disk.destination sampleShelves.home "/l".toList = [['l']] := by decide +kernel
  have hown : sampleLogger.HasOwnLog env (fun m => m) "/l".toList sampleShelves := by
    refine ⟨rfl, by decide, .inl ⟨_, hlog⟩, fun rest hrest => ?_, ?_⟩
    · obtain ⟨name, more, rfl⟩ := List.exists_cons_of_ne_nil hrest
      rw [hdest]
      simp [sampleShelves, Disk.node?, List.lookup_cons]
    · rw [hdest]
      exact DirectoryStore.leavesLog hroot ⟨by decide, by decide⟩
        fun messages m => ⟨rfl, fun _ hdir => hdir, fun _ _ => rfl⟩
  have hturns : (sampleLogger.run env [] sampleShelves).1.toOption.map Outcome.turns = some 2 := by
    decide +kernel
  cases hrun : (sampleLogger.run env [] sampleShelves).1 with
  | error f =>
    rw [hrun] at hturns
    cases hturns
  | ok o =>
    rw [hrun] at hturns
    obtain ⟨es, q, calls, hes, hstops, hlogs⟩ := run_logs hown hrun
    rw [hdest] at hlogs
    exact ⟨hown, o, rfl, Option.some.inj hturns, es, q, calls, hes, hstops, hlogs⟩

end Session

end Mend
