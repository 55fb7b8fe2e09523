import Mathlib.Data.List.Nodup
import Mend.Proofs.Disk.Folders
import Mend.Proofs.Session.Readings

/-!
# The folders of a log

The log of a session has a folder for each turn and one for the session, which holds the transcript.
They are compatible when no two turns have one number, so what stands in a directory where they were
written, and nothing else was, is what a reader of the transcript expects (`Session.Logs`): a
directory for each reply, with the reply, what was read from it, what was done about it and the
message that follows it, if one does (`Session.logs_of_below`).
-/

namespace Mend

/-! ## Records -/

/-- The name of an action. -/
def Action.label : Action → Text
  | done reason => "done:".toList ++ reason.name
  | requestFiles _ => "request_files".toList
  | applyPatch _ => "apply_patch".toList
  | followUp kind => kind.name

/-- The records of turns, each a reply and what was said in return, and of the actions on them. -/
structure TurnRecord.Recount (rs : List TurnRecord) (turns : List (Text × Option Text))
    (actions : List Action) : Prop where
  numbers : rs.map number = List.range' 1 rs.length
  turns_eq : rs.map (fun r => (r.response, r.outbound)) = turns
  actions_eq : rs.map action = actions.map Action.label
  turn_eq : ∀ r ∈ rs, r.turn = Turn.parse r.response

namespace TurnRecord.Recount

variable {rs : List TurnRecord} {turns : List (Text × Option Text)} {actions : List Action}

theorem nil : Recount [] [] [] := ⟨rfl, rfl, rfl, nofun⟩

theorem concat (h : Recount rs turns actions) {r : TurnRecord} {action : Action}
    (hnumber : r.number = turns.length + 1) (haction : r.action = action.label)
    (hturn : r.turn = Turn.parse r.response) :
    Recount (rs ++ [r]) (turns ++ [(r.response, r.outbound)]) (actions ++ [action]) where
  numbers := by
    rw [← h.turns_eq, List.length_map] at hnumber
    rw [List.map_append, h.numbers, List.length_append, List.length_singleton,
      List.range'_1_concat, List.map_singleton, hnumber, Nat.add_comm]
  turns_eq := by
    rw [List.map_append, h.turns_eq]
    rfl
  actions_eq := by
    rw [List.map_append, h.actions_eq, List.map_append, List.map_singleton, haction]
    rfl
  turn_eq := List.forall_mem_append.2 ⟨h.turn_eq, List.forall_mem_singleton.2 hturn⟩

theorem length_eq (h : Recount rs turns actions) : rs.length = turns.length := by
  rw [← h.turns_eq, List.length_map]

theorem mem_numbers (h : Recount rs turns actions) {number : Nat} :
    (∃ r ∈ rs, r.number = number) ↔ 1 ≤ number ∧ number ≤ turns.length := by
  rw [← List.mem_map, h.numbers, List.mem_range'_1, h.length_eq]
  omega

/-- Each turn has one record. -/
theorem eq_of_number_eq (h : Recount rs turns actions) {r r' : TurnRecord} (hr : r ∈ rs)
    (hr' : r' ∈ rs) (heq : r'.number = r.number) : r' = r := by
  have hnodup : (rs.map number).Nodup := h.numbers ▸ List.nodup_range'
  exact List.inj_on_of_nodup_map hnodup hr' hr heq

/-- The record of a turn. -/
theorem exists_getElem? (h : Recount rs turns actions) {k : Nat} {turn : Text × Option Text}
    (hturn : turns[k]? = some turn) : ∃ r ∈ rs, ∃ action, actions[k]? = some action ∧
      r.number = k + 1 ∧ r.response = turn.1 ∧ r.outbound = turn.2 ∧
      r.action = action.label := by
  rw [← h.turns_eq, List.getElem?_map] at hturn
  obtain ⟨r, hr, rfl⟩ := Option.map_eq_some_iff.1 hturn
  have hnumber : (rs.map number)[k]? = some r.number := by rw [List.getElem?_map, hr]; rfl
  have haction : (actions.map Action.label)[k]? = some r.action := by
    rw [← h.actions_eq, List.getElem?_map, hr]
    rfl
  rw [List.getElem?_map] at haction
  obtain ⟨action, hget, hlabel⟩ := Option.map_eq_some_iff.1 haction
  rw [h.numbers] at hnumber
  obtain ⟨hk, hnumber⟩ := List.getElem?_eq_some_iff.1 hnumber
  rw [List.getElem_range'] at hnumber
  exact ⟨r, List.mem_of_getElem? hr, action, hget, by omega, rfl, rfl, hlabel.symm⟩

end TurnRecord.Recount

/-! ## Folders of a log -/

theorem Text.ofNat_inj {m n : Nat} : ofNat m = ofNat n ↔ m = n := by
  constructor
  · intro h
    have hread := congrArg toNat? h
    rw [toNat?_ofNat, toNat?_ofNat] at hread
    exact Option.some.inj hread
  · exact congrArg ofNat

/-- Digits are a name. -/
theorem Path.isName_ofNat (n : Nat) : IsName (Text.ofNat n) := by
  have hnot : ∀ c, c.isDigit = false → c ∉ Text.ofNat n := fun c hc hmem =>
    Bool.false_ne_true (hc.symm.trans (Text.isDigit_of_mem_ofNat hmem))
  have hpoint := hnot '.' rfl
  exact {
    ne_nil := Text.ofNat_ne_nil n
    ne_current := fun heq => hpoint (heq ▸ List.mem_cons_self)
    ne_up := fun heq => hpoint (heq ▸ List.mem_cons_self)
    slash_notMem := hnot slash rfl }

namespace TurnLog

variable (log : TurnLog)

/-- The folder of a turn. -/
def turnFolder (r : TurnRecord) : Folder :=
  ⟨[log.session, Text.ofNat r.number], log.turnFiles r⟩

/-- The folder of a session. -/
def sessionFolder (ms : List Message) : Folder :=
  ⟨[log.session], [("transcript.json".toList, jsonText (Message.transcriptJson ms))]⟩

/-- The names of the files of a turn. -/
def fileNames : List Text :=
  ["response.txt".toList, "parsed.json".toList, "outbound.md".toList, "meta.json".toList]

variable {log} {r r' : TurnRecord} {ms : List Message}

theorem mem_turnFiles {name content : Text} : (name, content) ∈ log.turnFiles r ↔
    name = "response.txt".toList ∧ content = r.response ∨
    name = "parsed.json".toList ∧ content = jsonText r.turn.toJson ∨
    name = "outbound.md".toList ∧ r.outbound = some content ∨
    name = "meta.json".toList ∧ content = jsonText (r.describe log.session) := by
  rw [turnFiles]
  cases r.outbound with
  | none => simp
  | some t => simp [eq_comm]

/-- What was sent in return is in the one file of its name. -/
theorem mem_turnFiles_outbound {content : Text} :
    ("outbound.md".toList, content) ∈ log.turnFiles r ↔ r.outbound = some content := by
  have hother : "outbound.md".toList ≠ "response.txt".toList ∧
      "outbound.md".toList ≠ "parsed.json".toList ∧ "outbound.md".toList ≠ "meta.json".toList := by
    decide
  rw [mem_turnFiles]
  simp only [hother.1, hother.2.1, hother.2.2, false_and, false_or, or_false, true_and]

theorem mem_fileNames {file : Text × Text} (h : file ∈ log.turnFiles r) :
    file.1 ∈ fileNames := by
  obtain ⟨name, content⟩ := file
  rcases mem_turnFiles.1 h with ⟨rfl, -⟩ | ⟨rfl, -⟩ | ⟨rfl, -⟩ | ⟨rfl, -⟩
  all_goals simp [fileNames]

theorem nodup_turnFiles : ((log.turnFiles r).map Prod.fst).Nodup := by
  have hall : fileNames.Nodup := by decide
  have hsub : ((log.turnFiles r).map Prod.fst).Sublist fileNames := by
    rw [turnFiles]
    cases r.outbound with
    | none => exact .cons_cons _ (.cons_cons _ (.cons _ (.cons_cons _ .slnil)))
    | some t => exact List.Sublist.refl _
  exact hsub.nodup hall

theorem isProper_turnFolder (h : Path.IsName log.session) (r : TurnRecord) :
    (log.turnFolder r).IsProper where
  names_ne_nil := List.cons_ne_nil _ _
  isName_names := List.forall_mem_cons.2 ⟨h, List.forall_mem_singleton.2 (Path.isName_ofNat r.number)⟩
  isName_files file hfile := by
    have hnames : ∀ name ∈ fileNames, Path.IsName name := by decide
    exact hnames _ (mem_fileNames hfile)
  nodup := nodup_turnFiles

theorem isProper_sessionFolder (h : Path.IsName log.session) (ms : List Message) :
    (log.sessionFolder ms).IsProper where
  names_ne_nil := List.cons_ne_nil _ _
  isName_names := List.forall_mem_singleton.2 h
  isName_files := by
    have hname : Path.IsName "transcript.json".toList := by decide
    exact List.forall_mem_singleton.2 hname
  nodup := List.nodup_singleton _

/-- Turns with different numbers have nothing but their session's directory in common. -/
theorem compatible_turnFolder (h : r.number ≠ r'.number) :
    (log.turnFolder r).Compatible (log.turnFolder r') := by
  refine Folder.compatible_of_files (fun file _ hfile => ?_) (fun file _ hfile => ?_)
    fun file _ file' _ heq => ?_
  · simpa [turnFolder] using hfile.length_le
  · simpa [turnFolder] using hfile.length_le
  · simp only [turnFolder, List.cons_append, List.nil_append, List.cons.injEq] at heq
    exact h (Text.ofNat_inj.1 heq.2.1)

/-- No turn is named like the transcript. -/
theorem compatible_sessionFolder : (log.sessionFolder ms).Compatible (log.turnFolder r) := by
  have hnotNumber : Text.toNat? "transcript.json".toList = none := by decide
  refine Folder.compatible_of_files (fun file hmem hfile => ?_) (fun file _ hfile => ?_)
    fun file _ file' _ heq => ?_
  · obtain rfl := List.mem_singleton.1 hmem
    have heq : "transcript.json".toList = Text.ofNat r.number := by
      simpa [sessionFolder, turnFolder] using hfile
    rw [heq, Text.toNat?_ofNat] at hnotNumber
    cases hnotNumber
  · have hlength := hfile.length_le
    simp [sessionFolder, turnFolder] at hlength
  · have hlength := congrArg List.length heq
    simp [sessionFolder, turnFolder] at hlength

/-! ## What stands in a log -/

section Below

variable {d : Disk} {loc : Location} {rs : List TurnRecord} {name : Text} {node : DiskNode}
  (h : d.Below loc (rs.map log.turnFolder ++ [log.sessionFolder ms]))

include h

/-- What stands in a log is held by the folder of a turn or of the session. -/
theorem node?_log {rest : List Text} (hrest : rest ≠ []) : d.node? (loc ++ rest) = some node ↔
    (∃ r ∈ rs, (log.turnFolder r).Holds rest node) ∨ (log.sessionFolder ms).Holds rest node := by
  rw [h rest node hrest]
  simp only [List.mem_append, List.mem_map, List.mem_singleton, or_and_right, exists_or,
    exists_eq_left, exists_exists_and_eq_and]

/-- In the directory of a turn there are the files of the turn. -/
theorem node?_turn (hone : ∀ r' ∈ rs, r'.number = r.number → r' = r) (hr : r ∈ rs) :
    d.node? (loc ++ [log.session, Text.ofNat r.number, name]) = some node ↔
      ∃ content, (name, content) ∈ log.turnFiles r ∧ node = .file content.toBytes := by
  rw [node?_log h (List.cons_ne_nil _ _)]
  constructor
  · rintro (⟨r', hr', hold⟩ | hold)
    · generalize hrest : [log.session, Text.ofNat r.number, name] = rest at hold
      cases hold with
      | dir hinit hne =>
        have hlength := hinit.length_le
        simp [← hrest, turnFolder] at hlength
      | @file name' content hfile =>
        simp only [turnFolder, List.cons_append, List.nil_append, List.cons.injEq] at hrest
        obtain rfl := hone r' hr' (Text.ofNat_inj.1 hrest.2.1).symm
        obtain rfl : name = name' := hrest.2.2.1
        exact ⟨content, hfile, rfl⟩
    · generalize hrest : [log.session, Text.ofNat r.number, name] = rest at hold
      have hlength := congrArg List.length hrest
      cases hold with
      | dir hinit hne =>
        have hle := hinit.length_le
        simp [← hrest, sessionFolder] at hle
      | file hfile => simp [sessionFolder] at hlength
  · rintro ⟨content, hfile, rfl⟩
    exact .inl ⟨r, hr, Folder.Holds.file (f := log.turnFolder r) hfile⟩

/-- The directories in the directory of a session are those of its turns. -/
theorem node?_turnDir : d.node? (loc ++ [log.session, name]) = some .dir ↔
    ∃ r ∈ rs, name = Text.ofNat r.number := by
  rw [node?_log h (List.cons_ne_nil _ _)]
  constructor
  · rintro (⟨r, hr, ⟨hinit, -⟩⟩ | ⟨hinit, -⟩)
    · refine ⟨r, hr, ?_⟩
      simpa [turnFolder] using hinit
    · simp [sessionFolder] at hinit
  · rintro ⟨r, hr, rfl⟩
    exact .inl ⟨r, hr, .dir (List.prefix_refl _) (List.cons_ne_nil _ _)⟩

/-- The transcript is in the directory of the session. -/
theorem node?_transcript : d.node? (loc ++ [log.session, "transcript.json".toList])
    = some (.file (jsonText (Message.transcriptJson ms)).toBytes) := by
  rw [node?_log h (List.cons_ne_nil _ _)]
  exact .inr (Folder.Holds.file (f := log.sessionFolder ms) (List.mem_singleton.2 rfl))

/-- Nothing else is there. -/
theorem cases_of_node? {rest : List Text} (hrest : rest ≠ [])
    (hnode : d.node? (loc ++ rest) = some node) :
    rest = [log.session] ∨ rest = [log.session, "transcript.json".toList] ∨
      ∃ r ∈ rs, rest = [log.session, Text.ofNat r.number] ∨
        ∃ name ∈ fileNames, rest = [log.session, Text.ofNat r.number, name] := by
  rcases (node?_log h hrest).1 hnode with ⟨r, hr, hold⟩ | hold
  · cases hold with
    | dir hinit hne =>
      rcases List.prefix_cons_iff.1 hinit with rfl | ⟨below, rfl, hbelow⟩
      · exact absurd rfl hrest
      rcases List.prefix_cons_iff.1 hbelow with rfl | ⟨none, rfl, hnone⟩
      · exact .inl rfl
      · rw [List.prefix_nil.1 hnone]
        exact .inr (.inr ⟨r, hr, .inl rfl⟩)
    | file hfile => exact .inr (.inr ⟨r, hr, .inr ⟨_, mem_fileNames hfile, rfl⟩⟩)
  · cases hold with
    | dir hinit hne =>
      rcases List.prefix_cons_iff.1 hinit with rfl | ⟨none, rfl, hnone⟩
      · exact absurd rfl hrest
      · rw [List.prefix_nil.1 hnone]
        exact .inl rfl
    | file hfile =>
      cases List.mem_singleton.1 hfile
      exact .inr (.inl rfl)

end Below

end TurnLog

/-! ## Logs -/

/-- What is written about a turn. -/
structure TurnRecord.Describes (v : Json) (session : Text) (number : Nat) (reply : Text)
    (action : Action) : Prop where
  session : v.member? "session_id".toList = some (.text session)
  number : v.member? "turn".toList = some (.number (.nat number))
  action : v.member? "action".toList = some (.text action.label)
  bytes : v.member? "response_bytes".toList = some (.number (.nat reply.byteLength))

theorem TurnRecord.describes (r : TurnRecord) (session : Text) {action : Action}
    (haction : r.action = action.label) :
    Describes (r.describe session) session r.number r.response action where
  session := rfl
  number := rfl
  action := by
    rw [← haction]
    rfl
  bytes := rfl

/-- The log of a turn: a reply and the message after it, if there is one, and the action on it. -/
structure TurnLog.Holds (d : Disk) (dir : Location) (session : Text) (number : Nat)
    (turn : Text × Option Text) (action : Action) : Prop where
  response : d.node? (dir ++ ["response.txt".toList]) = some (.file turn.1.toBytes)
  parsed : d.node? (dir ++ ["parsed.json".toList])
    = some (.file (jsonText (Turn.parse turn.1).toJson).toBytes)
  outbound : d.node? (dir ++ ["outbound.md".toList]) = turn.2.map fun t => .file t.toBytes
  description : ∃ v, d.node? (dir ++ ["meta.json".toList]) = some (.file (jsonText v).toBytes) ∧
    TurnRecord.Describes v session number turn.1 action

/-- The log of a session with an outcome, for which it took actions. -/
structure Session.Logs (s : Session) (o : Outcome) (actions : List Action) (loc : Location)
    (d : Disk) : Prop where
  /-- The replies of the transcript are counted. -/
  turns_eq : o.turns = (Message.replies o.transcript).length
  /-- There is a directory for each turn. -/
  directories : ∀ name, d.node? (loc ++ [s.id, name]) = some .dir ↔
    ∃ number, 1 ≤ number ∧ number ≤ o.turns ∧ name = Text.ofNat number
  /-- It holds the reply, and the message after it if there is one. -/
  holds : ∀ k turn, (Message.replies o.transcript)[k]? = some turn → ∃ action,
    actions[k]? = some action ∧
      TurnLog.Holds d (loc ++ [s.id, Text.ofNat (k + 1)]) s.id (k + 1) turn action
  /-- The transcript can be read. -/
  transcript : ∃ t, d.node? (loc ++ [s.id, "transcript.json".toList]) = some (.file t.toBytes) ∧
    Message.readTranscript? t = some o.transcript
  /-- Nothing else is there. -/
  nothing_else : ∀ rest node, rest ≠ [] → d.node? (loc ++ rest) = some node →
    rest = [s.id] ∨ rest = [s.id, "transcript.json".toList] ∨
      ∃ number, (1 ≤ number ∧ number ≤ o.turns) ∧ (rest = [s.id, Text.ofNat number] ∨
        ∃ name ∈ TurnLog.fileNames, rest = [s.id, Text.ofNat number, name])

namespace TurnLog

variable {log : TurnLog} {d : Disk} {loc : Location} {rs : List TurnRecord}
  {turns : List (Text × Option Text)} {actions : List Action} {ms : List Message}

/-- The folder of a turn is its log. -/
theorem holds_of_below (h : d.Below loc (rs.map log.turnFolder ++ [log.sessionFolder ms]))
    (hrs : TurnRecord.Recount rs turns actions) {k : Nat} {turn : Text × Option Text}
    (hturn : turns[k]? = some turn) : ∃ action, actions[k]? = some action ∧
      Holds d (loc ++ [log.session, Text.ofNat (k + 1)]) log.session (k + 1) turn action := by
  obtain ⟨r, hr, action, haction, hnumber, hresponse, houtbound, hlabel⟩ :=
    hrs.exists_getElem? hturn
  have hfiles : ∀ name node,
      d.node? (loc ++ [log.session, Text.ofNat r.number, name]) = some node ↔
        ∃ content, (name, content) ∈ log.turnFiles r ∧ node = .file content.toBytes :=
    fun name node => node?_turn h (fun r' hr' => hrs.eq_of_number_eq hr hr') hr
  rw [← hnumber]
  refine ⟨action, haction, ?_, ?_, ?_, r.describe log.session, ?_, ?_⟩
  · rw [List.append_assoc, ← hresponse]
    exact (hfiles _ _).2 ⟨_, mem_turnFiles.2 (.inl ⟨rfl, rfl⟩), rfl⟩
  · rw [List.append_assoc, ← hresponse, ← hrs.turn_eq r hr]
    exact (hfiles _ _).2 ⟨_, mem_turnFiles.2 (.inr (.inl ⟨rfl, rfl⟩)), rfl⟩
  · rw [List.append_assoc, ← houtbound]
    refine Option.ext fun node => (hfiles _ _).trans ?_
    rw [Option.map_eq_some_iff]
    exact exists_congr fun content => and_congr mem_turnFiles_outbound eq_comm
  · rw [List.append_assoc]
    exact (hfiles _ _).2 ⟨_, mem_turnFiles.2 (.inr (.inr (.inr ⟨rfl, rfl⟩))), rfl⟩
  · rw [← hresponse]
    exact r.describes log.session hlabel

end TurnLog

/-- A disk with the folders of all turns and of the session has the log of the session. -/
theorem Session.logs_of_below {s : Session} {dir : Text} {o : Outcome} {d : Disk} {loc : Location}
    {rs : List TurnRecord} {actions : List Action}
    (hrs : TurnRecord.Recount rs (Message.replies o.transcript) actions)
    (hturns : o.turns = (Message.replies o.transcript).length)
    (h : d.Below loc (rs.map (TurnLog.turnFolder ⟨dir, s.id⟩)
      ++ [TurnLog.sessionFolder ⟨dir, s.id⟩ o.transcript])) : s.Logs o actions loc d where
  turns_eq := hturns
  directories name := by
    refine (TurnLog.node?_turnDir h).trans ?_
    rw [hturns]
    constructor
    · rintro ⟨r, hr, rfl⟩
      have hnumber := hrs.mem_numbers.1 ⟨r, hr, rfl⟩
      exact ⟨r.number, hnumber.1, hnumber.2, rfl⟩
    · rintro ⟨number, hpos, hle, rfl⟩
      obtain ⟨r, hr, rfl⟩ := hrs.mem_numbers.2 ⟨hpos, hle⟩
      exact ⟨r, hr, rfl⟩
  holds k turn hturn := TurnLog.holds_of_below h hrs hturn
  transcript :=
    ⟨_, TurnLog.node?_transcript h, Message.readTranscript?_jsonText o.transcript⟩
  nothing_else rest node hrest hnode := by
    rcases TurnLog.cases_of_node? h hrest hnode with hsession | htranscript | ⟨r, hr, hturn⟩
    · exact .inl hsession
    · exact .inr (.inl htranscript)
    · rw [hturns]
      exact .inr (.inr ⟨r.number, hrs.mem_numbers.1 ⟨r, hr, rfl⟩, hturn⟩)

end Mend
