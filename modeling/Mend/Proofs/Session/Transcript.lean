import Mend.Proofs.Session.Accounting

/-!
# The transcript of a session

A transcript opens with the system message and the prompt, and then holds the turns of the session:
each reply as it was received and what the session said in return (`Message.dialogue`). Only a reply
that ends a session has nothing after it.

Nothing that was sent is changed later: every call of the generator is sent the first part of one
and the same transcript, two messages more than the call before it (`Session.run_transcribes`).
-/

namespace Mend

namespace Message

/-! ## Turns -/

/-- The messages of turns, each a reply and what the session said in return. -/
def dialogue (turns : List (Text × Text)) : List Message :=
  turns.flatMap fun turn => [.assistant turn.1, .user turn.2]

@[simp]
theorem dialogue_nil : dialogue [] = [] := rfl

@[simp]
theorem dialogue_cons (turn : Text × Text) (turns : List (Text × Text)) :
    dialogue (turn :: turns) = .assistant turn.1 :: .user turn.2 :: dialogue turns := rfl

@[simp]
theorem length_dialogue (turns : List (Text × Text)) :
    (dialogue turns).length = 2 * turns.length := by
  induction turns with
  | nil => rfl
  | cons turn turns ih =>
    rw [dialogue_cons, List.length_cons, List.length_cons, ih, List.length_cons]
    omega

/-- A dialogue is cut between two turns, and what follows it is not touched. -/
theorem take_dialogue_append {turns : List (Text × Text)} {k : Nat} (hk : k ≤ turns.length)
    (rest : List Message) :
    (dialogue turns ++ rest).take (2 * k) = dialogue (turns.take k) := by
  induction k generalizing turns with
  | zero => rfl
  | succ k ih =>
    cases turns with
    | nil => simp at hk
    | cons turn turns =>
      rw [List.length_cons, Nat.add_le_add_iff_right] at hk
      rw [dialogue_cons, List.take_succ_cons, dialogue_cons, ← ih hk]
      rfl

end Message

namespace Session

variable {ω : Type}

/-- The turn of an exchange. -/
def Exchange.turn (e : Exchange) : Text × Text := (e.reply, e.outbound)

/-- The transcript of a session after turns, and after a reply that the session did not answer. -/
def transcript (s : Session) (prompt : Text) (turns : List (Text × Text)) (last : Option Text) :
    List Message :=
  .system (s.config.systemPrompt.getD Prompt.system) :: .user prompt ::
    (Message.dialogue turns ++ last.toList.map Message.assistant)

theorem length_transcript (s : Session) (prompt : Text) (turns : List (Text × Text))
    (last : Option Text) :
    (s.transcript prompt turns last).length = 2 + 2 * turns.length + last.toList.length := by
  simp only [transcript, List.length_cons, List.length_append, Message.length_dialogue,
    List.length_map]
  omega

/-- A transcript starts with the transcript after fewer turns. -/
theorem take_transcript (s : Session) (prompt : Text) {turns : List (Text × Text)} {k : Nat}
    (hk : k ≤ turns.length) (last : Option Text) :
    (s.transcript prompt turns last).take (2 * (k + 1))
      = s.transcript prompt (turns.take k) none := by
  rw [transcript, Nat.mul_add, List.take_succ_cons, List.take_succ_cons,
    Message.take_dialogue_append hk, transcript]
  simp

/-! ## Exchanges -/

section Exchanges

variable {s : Session} {env : Surroundings ω} {p q : Round ω} {es : List Exchange}

/-- Exchanges add their turns to the transcript. -/
theorem Exchanges.messages_eq (h : s.Exchanges env p es q) :
    q.conversation.messages
      = p.conversation.messages ++ Message.dialogue (es.map Exchange.turn) := by
  induction h with
  | nil p => simp
  | cons step rest ih =>
    obtain ⟨cache, written, hc⟩ := step.conversation_eq
    rw [ih, hc, List.map_cons, Message.dialogue_cons]
    simp [Exchange.turn]

/-- What is sent in an exchange is the transcript after the turns before it. -/
theorem Exchanges.sent_eq (h : s.Exchanges env p es q) {k : Nat} {e : Exchange}
    (he : es[k]? = some e) :
    e.sent = p.conversation.messages ++ Message.dialogue ((es.take k).map Exchange.turn) := by
  induction h generalizing k with
  | nil p => simp at he
  | cons step rest ih =>
    cases k with
    -- the first exchange sends the transcript as it stands, the others after its turn
    | zero =>
      obtain rfl := Option.some.inj he
      cases step
      simp
    | succ k =>
      obtain ⟨cache, written, hc⟩ := step.conversation_eq
      rw [ih he, hc, List.take_succ_cons, List.map_cons, Message.dialogue_cons]
      simp [Exchange.turn]

end Exchanges

/-! ## Stops -/

/-- What a session that stops still sends is its transcript, once at most. -/
theorem Stops.sent_eq {s : Session} {env : Surroundings ω} {p : Round ω} {calls : List Call}
    {result : Except Failure Outcome × ω} (h : s.Stops env p calls result) :
    calls.length ≤ 1 ∧ ∀ call ∈ calls, call.sent = p.conversation.messages := by
  cases h <;> simp

/-- At most one reply is left without an answer. -/
theorem Stops.exists_last {s : Session} {env : Surroundings ω} {p : Round ω} {calls : List Call}
    {result : Except Failure Outcome × ω} (h : s.Stops env p calls result) :
    ∃ last : Option Text, replies calls = last.toList := by
  cases h with
  | limit => exact ⟨none, rfl⟩
  | sendFails hsend => exact ⟨none, rfl⟩
  | done hsend haction hlog => exact ⟨some _, rfl⟩
  | logFails hsend hreact hlog => exact ⟨some _, rfl⟩

/-- A session that ends without a failure has its outcome, also if it keeps a log. -/
theorem eq_outcome_of_finish {s : Session} {env : Surroundings ω} {c : Conversation}
    {reason : DoneReason} {w : ω} {o : Outcome} (h : (s.finish env c reason w).1 = .ok o) :
    o = s.outcome c reason := by
  rw [finish] at h
  split at h
  · exact (Except.ok.inj h).symm
  · cases h

/-- How a session stops without a failure. -/
theorem Stops.ok_cases {s : Session} {env : Surroundings ω} {p : Round ω} {calls : List Call}
    {result : Except Failure Outcome × ω} {o : Outcome} (h : s.Stops env p calls result)
    (hok : result.1 = .ok o) :
    (calls = [] ∧ o = s.outcome p.conversation .turnLimitExceeded) ∨
    (∃ sent reply reason, calls = [⟨sent, .ok reply⟩] ∧
      s.nextAction (p.conversation.receive reply) (Turn.parse reply) = .done reason ∧
      o = s.outcome (p.conversation.receive reply) reason) := by
  cases h with
  | limit => exact .inl ⟨rfl, eq_outcome_of_finish hok⟩
  | sendFails hsend => cases hok
  | done hsend haction hlog => exact .inr ⟨_, _, _, rfl, haction, eq_outcome_of_finish hok⟩
  | logFails hsend hreact hlog => cases hok

/-- A session never takes more turns than it is allowed. -/
theorem turns_le_of_run {s : Session} {env : Surroundings ω} {prompt : Text} {w : ω} {o : Outcome}
    (hok : (s.run env prompt w).1 = .ok o) : o.turns ≤ s.config.maxTurns := by
  obtain ⟨es, q, calls, hes, hstops⟩ :=
    s.exists_exchanges env s.config.maxTurns (s.opening prompt) w
  have hleft := length_add_left_of_start hes
  have hturns := turns_eq_of_start hes
  rw [run] at hok
  generalize s.converse env s.config.maxTurns (s.opening prompt) w = result at hstops hok
  cases hstops with
  | limit =>
    have houtcome := congrArg Outcome.turns (eq_outcome_of_finish hok)
    simp only [outcome] at houtcome hturns hleft
    omega
  | sendFails hsend => cases hok
  | done hsend haction hlog =>
    have houtcome := congrArg Outcome.turns (eq_outcome_of_finish hok)
    simp only [outcome, Conversation.receive] at houtcome hturns hleft
    omega
  | logFails hsend hreact hlog => cases hok

/-- No action ends a session for the turn limit. -/
theorem ne_turnLimitExceeded {s : Session} {c : Conversation} {reply : Text} {reason : DoneReason}
    (h : s.nextAction (c.receive reply) (Turn.parse reply) = .done reason) :
    reason ≠ .turnLimitExceeded := by
  rintro rfl
  rcases Tally.action_done_cases (t := c.tally) h with hreason | ⟨hreason, -⟩ | ⟨hreason, -⟩
  all_goals cases hreason

/-! ## The transcript of a run -/

/-- What the calls of a session are sent, and the transcript of its outcome, given its turns and the
reply that it did not answer, if there is one. -/
structure Transcribes (s : Session) (prompt : Text) (calls : List Call)
    (turns : List (Text × Text)) (last : Option Text) (result : Except Failure Outcome) :
    Prop where
  replies_eq : replies calls = turns.map Prod.fst ++ last.toList
  /-- Each call is sent the first messages of the one transcript. -/
  sent_eq : ∀ k call, calls[k]? = some call →
    call.sent = (s.transcript prompt turns last).take (2 * (k + 1)) ∧
      call.sent.length = 2 * (k + 1)
  /-- So a call is sent what the calls before it were sent, and more. -/
  sent_chain : ∀ (i k : Nat) (early late : Call), i ≤ k → calls[i]? = some early →
    calls[k]? = some late → early.sent = late.sent.take (2 * (i + 1))
  transcript_eq : ∀ o, result = .ok o → o.transcript = s.transcript prompt turns last
  /-- Without a failure every call has a reply, and every reply is in the transcript. -/
  answers_eq : ∀ o, result = .ok o →
    calls.map Call.answer = (turns.map Prod.fst ++ last.toList).map .ok
  turns_eq : ∀ o, result = .ok o → o.turns = calls.length
  /-- The last reply is answered when the turn limit ends the session, and only then. -/
  last_eq_none_iff : ∀ o, result = .ok o → (last = none ↔ o.reason = .turnLimitExceeded)
  length_limit : ∀ o, result = .ok o → o.reason = .turnLimitExceeded →
    o.transcript.length = 2 + 2 * o.turns
  length_done : ∀ o, result = .ok o → o.reason ≠ .turnLimitExceeded →
    o.transcript.length = 1 + 2 * o.turns

section Start

variable {s : Session} {env : Surroundings ω} {prompt : Text} {w : ω} {es : List Exchange}
  {q : Round ω} (h : s.Exchanges env (s.start prompt w) es q)

include h

theorem messages_eq_of_start :
    q.conversation.messages = s.transcript prompt (es.map Exchange.turn) none := by
  rw [h.messages_eq, transcript]
  simp [start, opening, Conversation.start]

/-- The calls of a session are sent the transcript after the turns before them. -/
theorem sent_eq_of_start {calls : List Call} (hlength : calls.length ≤ 1)
    (hsent : ∀ call ∈ calls, call.sent = q.conversation.messages) {k : Nat} {call : Call}
    (hcall : (es.map Exchange.call ++ calls)[k]? = some call) :
    k ≤ es.length ∧ call.sent = s.transcript prompt ((es.take k).map Exchange.turn) none := by
  by_cases hk : k < es.length
  · rw [List.getElem?_append_left (by simpa using hk), List.getElem?_map] at hcall
    obtain ⟨e, he, rfl⟩ := Option.map_eq_some_iff.1 hcall
    refine ⟨Nat.le_of_lt hk, ?_⟩
    rw [Exchange.call, h.sent_eq he, transcript]
    simp [start, opening, Conversation.start]
  · -- the one call after the exchanges
    rw [List.getElem?_append_right (by simpa using hk), List.length_map] at hcall
    obtain ⟨hlt, -⟩ := List.getElem?_eq_some_iff.1 hcall
    obtain rfl : k = es.length := by omega
    rw [hsent call (List.mem_of_getElem? hcall), messages_eq_of_start h, List.take_length]
    exact ⟨Nat.le_refl _, rfl⟩

/-- The outcome of a session that stops after exchanges, with the reply that it did not answer. -/
theorem outcome_of_start {calls : List Call} {last : Option Text}
    {result : Except Failure Outcome × ω} {o : Outcome} (hstops : s.Stops env q calls result)
    (hlast : replies calls = last.toList) (hok : result.1 = .ok o) :
    o.transcript = s.transcript prompt (es.map Exchange.turn) last ∧
      o.turns = es.length + calls.length ∧ calls.map Call.answer = last.toList.map .ok ∧
      (last = none ↔ o.reason = .turnLimitExceeded) := by
  rcases hstops.ok_cases hok with ⟨rfl, rfl⟩ | ⟨sent, reply, reason, rfl, haction, rfl⟩
  -- at the limit every reply was answered, and else the last one was not
  · obtain rfl : last = none := by simpa [replies] using hlast
    exact ⟨messages_eq_of_start h, turns_eq_of_start h, rfl, iff_of_true rfl rfl⟩
  · obtain rfl : last = some reply := by
      have hone : last.toList = [reply] := hlast.symm
      simpa using hone
    refine ⟨?_, ?_, rfl, iff_of_false (by simp) (ne_turnLimitExceeded haction)⟩
    · rw [outcome, Conversation.receive, messages_eq_of_start h, transcript, transcript]
      simp
    · rw [outcome, Conversation.receive, turns_eq_of_start h]
      rfl

end Start

/-- The recorded run of a session: its exchanges and its stop make the calls. -/
theorem exists_recorded (s : Session) (env : Surroundings ω) (prompt : Text) (w : ω) :
    ∃ es q calls, s.Exchanges env.recorded (s.start prompt (w, [])) es q ∧
      s.Stops env.recorded q calls (s.run env.recorded prompt (w, [])) ∧
      (s.run env.recorded prompt (w, [])).2.2 = es.map Exchange.call ++ calls := by
  obtain ⟨es, q, calls, hes, hstops⟩ :=
    s.exists_exchanges env.recorded s.config.maxTurns (s.opening prompt) (w, [])
  refine ⟨es, q, calls, hes, hstops, ?_⟩
  have hcalls := hstops.calls_eq
  rw [hes.calls_eq, List.nil_append] at hcalls
  exact hcalls

/-- Every session replays one transcript, and keeps it when it ends without a failure: whatever the
generator, the store and the log do, and wherever a failure ends it. -/
theorem run_transcribes (s : Session) (env : Surroundings ω) (prompt : Text) (w : ω) :
    ∃ turns last, s.Transcribes prompt (s.run env.recorded prompt (w, [])).2.2 turns last
      (s.run env prompt w).1 := by
  obtain ⟨es, q, calls, hes, hstops, hcalls⟩ := s.exists_recorded env prompt w
  obtain ⟨last, hlast⟩ := hstops.exists_last
  obtain ⟨hlength, hsent⟩ := hstops.sent_eq
  rw [(s.run_recorded env prompt w []).1, hcalls]
  have hreplies : replies (es.map Exchange.call ++ calls)
      = (es.map Exchange.turn).map Prod.fst ++ last.toList := by
    rw [replies_append, hlast, List.map_map]
    rfl
  -- every call is sent the transcript so far, which is the first part of the whole
  have hfirst : ∀ (k : Nat) (call : Call), (es.map Exchange.call ++ calls)[k]? = some call →
      call.sent = (s.transcript prompt (es.map Exchange.turn) last).take (2 * (k + 1)) ∧
        call.sent.length = 2 * (k + 1) := by
    intro k call hcall
    obtain ⟨hk, heq⟩ := sent_eq_of_start hes hlength hsent hcall
    rw [take_transcript s prompt (by simpa using hk), ← List.map_take]
    refine ⟨heq, ?_⟩
    rw [heq, length_transcript, List.length_map, List.length_take, Nat.min_eq_left hk,
      Option.toList_none, List.length_nil]
    omega
  refine ⟨es.map Exchange.turn, last, hreplies, hfirst, ?_, ?_, ?_, ?_, ?_, ?_, ?_⟩
  · intro i k early late hik hearly hlate
    rw [(hfirst i early hearly).1, (hfirst k late hlate).1, List.take_take,
      Nat.min_eq_left (by omega)]
  all_goals
    intro o ho
    obtain ⟨htranscript, hturns, hanswers, hreason⟩ := outcome_of_start hes hstops hlast ho
    have hcount : calls.length = last.toList.length := by
      rw [← List.length_map (f := Call.answer), hanswers, List.length_map]
  · exact htranscript
  · rw [List.map_append, List.map_append, hanswers, List.map_map, List.map_map, List.map_map]
    rfl
  · rw [hturns, List.length_append, List.length_map]
  · exact hreason
  · intro hlimit
    rw [htranscript, length_transcript, List.length_map, hturns, hcount, hreason.2 hlimit]
    rfl
  · intro hlimit
    obtain ⟨reply, rfl⟩ := Option.ne_none_iff_exists'.1 (mt hreason.1 hlimit)
    rw [htranscript, length_transcript, List.length_map, hturns, hcount, Option.toList_some,
      List.length_singleton]
    omega

/-! ## Transcripts that are sent -/

/-- A transcript that a session sends to its generator, or ends with. -/
def Sends (s : Session) (env : Surroundings ω) (prompt : Text) (w : ω) (ms : List Message) :
    Prop :=
  (∃ call ∈ (s.run env.recorded prompt (w, [])).2.2, call.sent = ms) ∨
    ∃ o, (s.run env prompt w).1 = .ok o ∧ o.transcript = ms

/-- The turns of a transcript that is sent are turns of the session. -/
theorem Sends.exists_turns {s : Session} {env : Surroundings ω} {prompt : Text} {w : ω}
    {ms : List Message} (h : s.Sends env prompt w ms) :
    ∃ es q turns last, s.Exchanges env.recorded (s.start prompt (w, [])) es q ∧
      turns <+: es.map Exchange.turn ∧ ms = s.transcript prompt turns last := by
  obtain ⟨es, q, calls, hes, hstops, hcalls⟩ := s.exists_recorded env prompt w
  obtain ⟨hlength, hsent⟩ := hstops.sent_eq
  rcases h with ⟨call, hcall, rfl⟩ | ⟨o, ho, rfl⟩
  · rw [hcalls] at hcall
    obtain ⟨k, hk⟩ := List.getElem?_of_mem hcall
    refine ⟨es, q, _, none, hes, ?_, (sent_eq_of_start hes hlength hsent hk).2⟩
    rw [List.map_take]
    exact List.take_prefix ..
  · obtain ⟨last, hlast⟩ := hstops.exists_last
    rw [(s.run_recorded env prompt w []).1] at ho
    exact ⟨es, q, _, last, hes, List.prefix_refl _, (outcome_of_start hes hstops hlast ho).1⟩

end Session

end Mend
