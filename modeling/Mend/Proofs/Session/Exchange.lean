import Mend.Proofs.Session.Simulation

/-!
# Exchanges

A session that goes on makes exchanges: it sends its transcript, receives a reply, takes the action
for it and says something in return (`Session.Step`). A run is a list of exchanges and a stop
(`Session.exists_exchanges`), and `Session.Step.conversation_eq` says everything that an exchange
does to a conversation but for the cache and the written paths, on which no decision depends.

What the decisions depend on is the tally of a conversation (`Conversation.tally`); it and the
replies determine the actions (`Session.Exchanges.actions_eq`).
-/

namespace Mend

/-! ## Tallies -/

/-- What the action on a turn depends on besides the turn. -/
structure Tally where
  /-- Whether a confirmation or a final review was asked for. -/
  confirmed : Bool := false
  /-- The number of corrective prompts sent. -/
  correctives : Nat := 0
  deriving DecidableEq, Repr

namespace Tally

/-- The tally after an action. -/
def after (t : Tally) : Action → Tally
  | .followUp .corrective => { t with correctives := t.correctives + 1 }
  | .followUp _ => { t with confirmed := true }
  | _ => t

/-- The action on a reply, of which `retries` may be corrective prompts. -/
def action (retries : Nat) (t : Tally) (reply : Text) : Action :=
  (Turn.parse reply).action t.confirmed (retries - t.correctives)

/-- The actions on replies, one after the other. -/
def actions (retries : Nat) : Tally → List Text → List Action
  | _, [] => []
  | t, reply :: rest =>
    t.action retries reply :: actions retries (t.after (t.action retries reply)) rest

theorem actions_append (retries : Nat) (t : Tally) (replies more : List Text) :
    t.actions retries (replies ++ more) = t.actions retries replies
      ++ ((t.actions retries replies).foldl after t).actions retries more := by
  induction replies generalizing t with
  | nil => rfl
  | cons reply replies ih =>
    rw [List.cons_append, actions, ih, actions]
    rfl

end Tally

/-- The tally of a conversation. -/
def Conversation.tally (c : Conversation) : Tally := ⟨c.confirmed, c.correctives⟩

namespace Session

variable {ω : Type}

/-! ## Steps -/

/-- Where a session stands before it sends its transcript. -/
structure Round (ω : Type) where
  /-- The number of replies that are left. -/
  left : Nat
  /-- The conversation so far. -/
  conversation : Conversation
  /-- The world. -/
  world : ω

/-- The first round of a session. -/
def start (s : Session) (prompt : Text) (w : ω) : Round ω :=
  ⟨s.config.maxTurns, s.opening prompt, w⟩

/-- A reply that a session goes on from. -/
structure Exchange where
  /-- The transcript that was sent. -/
  sent : List Message
  /-- The reply. -/
  reply : Text
  /-- What the session did about it. -/
  action : Action
  /-- What the session said in return. -/
  outbound : Text
  deriving DecidableEq, Repr

/-- The call of an exchange. -/
def Exchange.call (e : Exchange) : Call := ⟨e.sent, .ok e.reply⟩

/-- A session goes on from one round to the next. -/
inductive Step (s : Session) (env : Surroundings ω) : Round ω → Exchange → Round ω → Prop
  | intro {left : Nat} {c c' : Conversation} {w w₁ w₂ w₃ : ω} {reply name : Text} {r : Reaction}
      (hsend : env.send c.messages w = (.ok reply, w₁))
      (hreact : s.react env (s.nextAction (c.receive reply) (Turn.parse reply)) (c.receive reply) w₁
        = (.ok (name, r), c', w₂))
      (hlog : s.logged env
        (fun log => log.writeTurn (record c' reply name (some r.outbound) r.trace)) w₂
        = (.ok (), w₃)) :
      Step s env ⟨left + 1, c, w⟩
        ⟨c.messages, reply, s.nextAction (c.receive reply) (Turn.parse reply), r.outbound⟩
        ⟨left, c'.say r.outbound, w₃⟩

/-- A session goes on through exchanges. -/
inductive Exchanges (s : Session) (env : Surroundings ω) :
    Round ω → List Exchange → Round ω → Prop
  | nil (p : Round ω) : Exchanges s env p [] p
  | cons {p q r : Round ω} {e : Exchange} {es : List Exchange} (step : Step s env p e q)
      (rest : Exchanges s env q es r) : Exchanges s env p (e :: es) r

/-- How a session stops: the calls that it still makes, and its result. -/
inductive Stops (s : Session) (env : Surroundings ω) :
    Round ω → List Call → Except Failure Outcome × ω → Prop
  /-- No reply is left. -/
  | limit {c : Conversation} {w : ω} :
      Stops s env ⟨0, c, w⟩ [] (s.finish env c .turnLimitExceeded w)
  /-- The generator fails. -/
  | sendFails {left : Nat} {c : Conversation} {w w₁ : ω} {f : Failure}
      (hsend : env.send c.messages w = (.error f, w₁)) :
      Stops s env ⟨left + 1, c, w⟩ [⟨c.messages, .error f⟩] (.error f, w₁)
  /-- The action on the reply ends the session. -/
  | done {left : Nat} {c : Conversation} {w w₁ w₂ : ω} {reply : Text} {reason : DoneReason}
      (hsend : env.send c.messages w = (.ok reply, w₁))
      (haction : s.nextAction (c.receive reply) (Turn.parse reply) = .done reason)
      (hlog : s.logged env (fun log => log.writeTurn
        (record (c.receive reply) reply ("done:".toList ++ reason.name) none {})) w₁
        = (.ok (), w₂)) :
      Stops s env ⟨left + 1, c, w⟩ [⟨c.messages, .ok reply⟩]
        (s.finish env (c.receive reply) reason w₂)
  /-- The turn cannot be logged. -/
  | logFails {left : Nat} {c c' : Conversation} {w w₁ w₂ w₃ : ω} {reply : Text}
      {r : TurnRecord} {x : Except DoneReason (Text × Reaction)} {f : Failure}
      (hsend : env.send c.messages w = (.ok reply, w₁))
      (hreact : s.react env (s.nextAction (c.receive reply) (Turn.parse reply)) (c.receive reply) w₁
        = (x, c', w₂))
      (hlog : s.logged env (fun log => log.writeTurn r) w₂ = (.error f, w₃)) :
      Stops s env ⟨left + 1, c, w⟩ [⟨c.messages, .ok reply⟩] (.error f, w₃)

/-- Without a log nothing is done, and else it is done on the disk. -/
theorem logged_cases {s : Session} {env : Surroundings ω}
    {record : TurnLog → Disk → Except Failure Unit × Disk} {w w' : ω} {x : Except Failure Unit}
    (h : s.logged env record w = (x, w')) :
    w' = w ∨ ∃ log, s.log? = some log ∧ env.onDisk (record log) w = (x, w') := by
  rw [logged] at h
  cases hlog : s.log? with
  | none =>
    rw [hlog] at h
    exact .inl (Prod.mk.inj h).2.symm
  | some log =>
    rw [hlog] at h
    exact .inr ⟨log, rfl, h⟩

/-- Logging keeps what the operations on the disk keep. -/
theorem logged_keeps {s : Session} {env : Surroundings ω} {α : Type} (part : ω → α)
    (hkeeps : ∀ op w, part (env.onDisk op w).2 = part w)
    {record : TurnLog → Disk → Except Failure Unit × Disk} {w w' : ω} {x : Except Failure Unit}
    (h : s.logged env record w = (x, w')) : part w' = part w := by
  rcases logged_cases h with rfl | ⟨log, -, hdisk⟩
  · rfl
  · have hlast := hkeeps (record log) w
    rw [hdisk] at hlast
    exact hlast

theorem finish_keeps (s : Session) {env : Surroundings ω} {α : Type} (part : ω → α)
    (hkeeps : ∀ op w, part (env.onDisk op w).2 = part w) (c : Conversation) (reason : DoneReason)
    (w : ω) : part (s.finish env c reason w).2 = part w := by
  rw [finish]
  rcases hlogged : s.logged env (fun log => log.writeTranscript c.messages) w with ⟨_ | _, w'⟩
  · exact logged_keeps part hkeeps hlogged
  · exact logged_keeps part hkeeps hlogged

/-- Only the actions that end a session have a reason. -/
theorem react_error {s : Session} {env : Surroundings ω} {action : Action} {c c' : Conversation}
    {w w' : ω} {reason : DoneReason} (h : s.react env action c w = (.error reason, c', w')) :
    action = .done reason ∧ c' = c ∧ w' = w := by
  cases action with
  | done other =>
    rw [react, Prod.mk.injEq, Prod.mk.injEq, Except.error.injEq] at h
    obtain ⟨rfl, rfl, rfl⟩ := h
    exact ⟨rfl, rfl, rfl⟩
  | requestFiles requests => cases h
  | applyPatch patch => cases h
  | followUp kind => cases h

/-- A session goes on through exchanges until it stops. -/
theorem exists_exchanges (s : Session) (env : Surroundings ω) (left : Nat) (c : Conversation)
    (w : ω) : ∃ es q calls, Exchanges s env ⟨left, c, w⟩ es q ∧
      Stops s env q calls (s.converse env left c w) := by
  induction left generalizing c w with
  | zero => exact ⟨[], _, [], .nil _, .limit⟩
  | succ left ih =>
    rw [converse]
    rcases hsend : env.send c.messages w with ⟨_ | reply, w₁⟩
    · exact ⟨[], _, _, .nil _, .sendFails hsend⟩
    · dsimp only
      rcases hreact : s.react env (s.nextAction (c.receive reply) (Turn.parse reply))
        (c.receive reply) w₁ with ⟨reason | ⟨name, r⟩, c', w₂⟩
      -- the action has ended the session, and only the log can still fail
      · obtain ⟨haction, rfl, rfl⟩ := react_error hreact
        dsimp only
        rcases hlog : s.logged env (fun log => log.writeTurn
          (record (c.receive reply) reply ("done:".toList ++ reason.name) none {})) w₂
          with ⟨_ | _, w₃⟩
        · exact ⟨[], _, _, .nil _, .logFails hsend hreact hlog⟩
        · exact ⟨[], _, _, .nil _, .done hsend haction hlog⟩
      · dsimp only
        rcases hlog : s.logged env (fun log => log.writeTurn
          (record c' reply name (some r.outbound) r.trace)) w₂ with ⟨_ | _, w₃⟩
        · exact ⟨[], _, _, .nil _, .logFails hsend hreact hlog⟩
        · obtain ⟨es, q, calls, hes, hstops⟩ := ih (c'.say r.outbound) w₃
          exact ⟨_, q, calls, .cons (.intro hsend hreact hlog) hes, hstops⟩

/-- A session goes on in a round as it does in one that it has come to from there. -/
theorem Exchanges.converse_eq {s : Session} {env : Surroundings ω} {p q : Round ω}
    {es : List Exchange} (h : s.Exchanges env p es q) :
    s.converse env p.left p.conversation p.world
      = s.converse env q.left q.conversation q.world := by
  induction h with
  | nil p => rfl
  | cons step rest ih =>
    cases step with
    | intro hsend hreact hlog =>
      rw [← ih, converse, hsend]
      dsimp only
      rw [hreact]
      dsimp only
      rw [hlog]

/-! ## What an exchange changes -/

/-- Delivering files changes the cache and the written paths. -/
theorem deliver_conversation {store : Store ω} {files : List PatchedFile}
    {delivery delivery' : Reaction.Delivery} {c c' : Conversation} {w w' : ω}
    (h : Reaction.deliver store files delivery c w = (delivery', c', w')) :
    ∃ cache written, c' = { c with cache, written } := by
  induction files generalizing delivery c w with
  | nil =>
    rw [Reaction.deliver, Prod.mk.injEq, Prod.mk.injEq] at h
    exact ⟨c.cache, c.written, h.2.1.symm⟩
  | cons file rest ih =>
    rw [Reaction.deliver, Reaction.deliverOne] at h
    rcases hwrite : store.write file.path file.content w with ⟨_ | _, w₁⟩
    · rw [hwrite] at h
      exact ih h
    · rw [hwrite] at h
      obtain ⟨cache, written, hc⟩ := ih h
      refine ⟨cache, written, ?_⟩
      -- a file that is written again is not recorded a second time
      rw [hc, Conversation.wrote, Conversation.recordWritten]
      split <;> rfl

/-- So does applying a patch. -/
theorem applyPatch_conversation {store : Store ω} {cfg : Config} {patch : Text} {r : Reaction}
    {c c' : Conversation} {w w' : ω} (h : Reaction.applyPatch store cfg patch c w = (r, c', w')) :
    ∃ cache written, c' = { c with cache, written } := by
  rw [Reaction.applyPatch] at h
  rcases happly : Patch.apply cfg.strictContext (Reaction.load store) patch (c.cache, w)
    with ⟨e | result, cache, w₁⟩
  · rw [happly, Prod.mk.injEq, Prod.mk.injEq] at h
    exact ⟨cache, c.written, h.2.1.symm⟩
  · rw [happly] at h
    dsimp only at h
    rcases hdeliver : Reaction.deliver store result.files {} { c with cache } w₁
      with ⟨delivery, c₁, w₂⟩
    rw [hdeliver, Prod.mk.injEq, Prod.mk.injEq] at h
    obtain ⟨cache', written, hc⟩ := deliver_conversation hdeliver
    exact ⟨cache', written, h.2.1.symm.trans hc⟩

/-- A reaction changes the cache, the written paths and the tally. -/
theorem react_conversation {s : Session} {env : Surroundings ω} {action : Action}
    {c c' : Conversation} {w w' : ω} {x : Except DoneReason (Text × Reaction)}
    (h : s.react env action c w = (x, c', w')) :
    ∃ cache written, c' = { c with
      cache, written
      confirmed := (c.tally.after action).confirmed
      correctives := (c.tally.after action).correctives } := by
  cases action with
  | done reason =>
    rw [react, Prod.mk.injEq, Prod.mk.injEq] at h
    exact ⟨c.cache, c.written, h.2.1.symm⟩
  | requestFiles requests =>
    rw [react, Reaction.serve, Prod.mk.injEq, Prod.mk.injEq] at h
    exact ⟨_, c.written, h.2.1.symm⟩
  | applyPatch patch =>
    rcases happly : Reaction.applyPatch env.store s.config patch c w with ⟨r, c₁, w₁⟩
    rw [react, happly, Prod.mk.injEq, Prod.mk.injEq] at h
    obtain ⟨cache, written, hc⟩ := applyPatch_conversation happly
    exact ⟨cache, written, h.2.1.symm.trans hc⟩
  | followUp kind =>
    rw [react, Prod.mk.injEq, Prod.mk.injEq] at h
    refine ⟨c.cache, c.written, h.2.1.symm.trans ?_⟩
    cases kind <;> rfl

/-- The actions that do not end a session have a reaction. -/
theorem react_ok {s : Session} {env : Surroundings ω} {action : Action} {c c' : Conversation}
    {w w' : ω} {x : Text × Reaction} (h : s.react env action c w = (.ok x, c', w'))
    (reason : DoneReason) : action ≠ .done reason := by
  rintro rfl
  cases h

namespace Step

variable {s : Session} {env : Surroundings ω} {p q : Round ω} {e : Exchange}

/-- An exchange adds a reply and a message, and changes the cache, the written paths and the
tally. -/
theorem conversation_eq (h : s.Step env p e q) : ∃ cache written, q.conversation =
    { p.conversation.receive e.reply with
      messages := p.conversation.messages ++ [.assistant e.reply, .user e.outbound]
      cache, written
      confirmed := (p.conversation.tally.after e.action).confirmed
      correctives := (p.conversation.tally.after e.action).correctives } := by
  cases h with
  | intro hsend hreact hlog =>
    obtain ⟨cache, written, hc⟩ := react_conversation hreact
    refine ⟨cache, written, ?_⟩
    rw [hc, Conversation.say]
    simp [Conversation.receive, Conversation.rememberGoals, Conversation.tally]

theorem left_eq (h : s.Step env p e q) : p.left = q.left + 1 := by
  cases h
  rfl

theorem tally_eq (h : s.Step env p e q) :
    q.conversation.tally = p.conversation.tally.after e.action := by
  obtain ⟨cache, written, hc⟩ := h.conversation_eq
  rw [hc]
  rfl

theorem turns_eq (h : s.Step env p e q) : q.conversation.turns = p.conversation.turns + 1 := by
  obtain ⟨cache, written, hc⟩ := h.conversation_eq
  rw [hc]
  rfl

theorem action_eq (h : s.Step env p e q) :
    e.action = p.conversation.tally.action s.config.correctiveRetries e.reply := by
  cases h
  rfl

theorem action_ne_done (h : s.Step env p e q) (reason : DoneReason) : e.action ≠ .done reason := by
  cases h with
  | intro hsend hreact hlog => exact react_ok hreact reason

end Step

namespace Exchanges

variable {s : Session} {env : Surroundings ω} {p q : Round ω} {es : List Exchange}

theorem left_eq (h : s.Exchanges env p es q) : p.left = q.left + es.length := by
  induction h with
  | nil p => rfl
  | cons step rest ih =>
    rw [step.left_eq, ih, List.length_cons]
    omega

theorem turns_eq (h : s.Exchanges env p es q) :
    q.conversation.turns = p.conversation.turns + es.length := by
  induction h with
  | nil p => rfl
  | cons step rest ih =>
    rw [ih, step.turns_eq, List.length_cons]
    omega

/-- The actions are determined by the tally and the replies. -/
theorem actions_eq (h : s.Exchanges env p es q) : es.map Exchange.action
    = p.conversation.tally.actions s.config.correctiveRetries (es.map Exchange.reply) := by
  induction h with
  | nil p => rfl
  | cons step rest ih =>
    rw [List.map_cons, List.map_cons, ih, Tally.actions, step.tally_eq, step.action_eq]

theorem tally_eq (h : s.Exchanges env p es q) : q.conversation.tally
    = (es.map Exchange.action).foldl Tally.after p.conversation.tally := by
  induction h with
  | nil p => rfl
  | cons step rest ih => rw [ih, step.tally_eq, List.map_cons, List.foldl_cons]

theorem action_ne_done (h : s.Exchanges env p es q) :
    ∀ e ∈ es, ∀ reason, e.action ≠ .done reason := by
  induction h with
  | nil p => exact fun e he => absurd he List.not_mem_nil
  | cons step rest ih => exact List.forall_mem_cons.2 ⟨step.action_ne_done, ih⟩

end Exchanges

/-! ## Recorded calls -/

section Recorded

variable {s : Session} {env : Surroundings ω}

theorem react_recorded {action : Action} {c c' : Conversation} {w w' : ω × List Call}
    {x : Except DoneReason (Text × Reaction)} (h : s.react env.recorded action c w = (x, c', w')) :
    w'.2 = w.2 :=
  react_rest env.store_simulates_recorded h

theorem logged_recorded {record : TurnLog → Disk → Except Failure Unit × Disk}
    {w w' : ω × List Call} {x : Except Failure Unit}
    (h : s.logged env.recorded record w = (x, w')) : w'.2 = w.2 :=
  logged_keeps Prod.snd (fun _ _ => rfl) h

theorem finish_recorded (c : Conversation) (reason : DoneReason) (w : ω × List Call) :
    (s.finish env.recorded c reason w).2.2 = w.2 :=
  s.finish_keeps Prod.snd (fun _ _ => rfl) c reason w

theorem send_recorded {messages : List Message} {w w' : ω × List Call} {x : Except Failure Text}
    (h : env.recorded.send messages w = (x, w')) : w'.2 = w.2 ++ [⟨messages, x⟩] := by
  obtain ⟨rfl, rfl⟩ := Prod.mk.inj h
  rfl

/-- Each exchange makes one call. -/
theorem Exchanges.calls_eq {p q : Round (ω × List Call)} {es : List Exchange}
    (h : s.Exchanges env.recorded p es q) : q.world.2 = p.world.2 ++ es.map Exchange.call := by
  induction h with
  | nil p => rw [List.map_nil, List.append_nil]
  | cons step rest ih =>
    cases step with
    | intro hsend hreact hlog =>
      rw [ih, logged_recorded hlog, react_recorded hreact, send_recorded hsend, List.append_assoc]
      rfl

theorem Stops.calls_eq {p : Round (ω × List Call)} {calls : List Call}
    {result : Except Failure Outcome × ω × List Call} (h : s.Stops env.recorded p calls result) :
    result.2.2 = p.world.2 ++ calls := by
  cases h with
  | limit => rw [finish_recorded, List.append_nil]
  | sendFails hsend => exact send_recorded hsend
  | done hsend haction hlog =>
    rw [finish_recorded, logged_recorded hlog, send_recorded hsend]
  | logFails hsend hreact hlog =>
    rw [logged_recorded hlog, react_recorded hreact, send_recorded hsend]

end Recorded

end Session

end Mend
