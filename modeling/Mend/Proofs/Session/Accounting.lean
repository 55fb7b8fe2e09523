import Mend.Proofs.Session.Exchange
import Mend.Session.Script

/-!
# What a session accounts for

A session stops whatever it is sent: it makes at most as many successful calls as turns are allowed,
and its outcome counts them (`Session.run_accounts`). The reason of an outcome is the first action
that ends a session, and the turn limit when there is no such action among the allowed replies. A
session fails exactly when its generator does.

The actions are a function of the replies alone (`Session.actions`), so the account can be checked
against the record of the calls.
-/

namespace Mend

/-! ## Actions -/

namespace Tally

variable {retries : Nat} {t : Tally}

/-- A corrective prompt is only sent while one is left. -/
theorem lt_of_action_eq_corrective {reply : Text}
    (h : t.action retries reply = .followUp .corrective) : t.correctives < retries := by
  rw [action, Turn.action] at h
  split at h
  · cases h
  · cases h
  · split at h <;> cases h
  · cases h
  · split at h
    · cases h
    split at h
    · cases h
    split at h
    · omega
    · cases h

/-- The reasons for which an action ends a session. -/
theorem action_done_cases {reply : Text} {reason : DoneReason}
    (h : t.action retries reply = .done reason) :
    reason = .completed ∨ reason = .noChangesNeeded ∧ t.confirmed = true ∨
      reason = .noActionableContent ∧ retries ≤ t.correctives := by
  rw [action, Turn.action] at h
  split at h
  · cases h
    exact .inl rfl
  · cases h
    exact .inl rfl
  · split at h
    · cases h
      exact .inr (.inl ⟨rfl, ‹_›⟩)
    · cases h
  · cases h
  · split at h
    · cases h
    split at h
    · cases h
    split at h
    · cases h
    · cases h
      exact .inr (.inr ⟨rfl, by omega⟩)

/-- The tally counts the corrective prompts. -/
theorem correctives_foldl_after (t : Tally) (as : List Action) :
    (as.foldl after t).correctives = t.correctives + as.count (.followUp .corrective) := by
  induction as generalizing t with
  | nil => rfl
  | cons a as ih =>
    rw [List.foldl_cons, ih, List.count_cons]
    by_cases ha : a = .followUp .corrective
    · rw [ha, if_pos (by decide)]
      show t.correctives + 1 + _ = _
      omega
    · have hafter : (t.after a).correctives = t.correctives := by
        cases a with
        | followUp kind =>
          cases kind with
          | corrective => exact absurd rfl ha
          | _ => rfl
        | _ => rfl
      rw [hafter, if_neg (by simpa using ha), Nat.add_zero]

/-- Never more corrective prompts are sent than allowed. -/
theorem correctives_le (h : t.correctives ≤ retries) (replies : List Text) :
    ((t.actions retries replies).foldl after t).correctives ≤ retries := by
  induction replies generalizing t with
  | nil => exact h
  | cons reply replies ih =>
    rw [actions, List.foldl_cons]
    refine ih ?_
    -- only the corrective prompt itself adds to the count
    cases haction : t.action retries reply with
    | followUp kind =>
      cases kind with
      | corrective => exact lt_of_action_eq_corrective haction
      | _ => exact h
    | _ => exact h

end Tally

namespace Session

variable {ω : Type}

/-- The actions of a session on replies. -/
def actions (s : Session) (replies : List Text) : List Action :=
  Tally.actions s.config.correctiveRetries {} replies

/-- The replies among the answers to calls. -/
def replies (calls : List Call) : List Text := calls.filterMap fun call => call.answer.toOption

/-- What a session accounts for, given the calls that it made and its result. -/
structure Accounts (s : Session) (calls : List Call) (result : Except Failure Outcome) : Prop where
  replies_le : (replies calls).length ≤ s.config.maxTurns
  correctives_le : (s.actions (replies calls)).count (.followUp .corrective)
    ≤ s.config.correctiveRetries
  /-- No call follows one that fails. -/
  ok_of_mem_dropLast : ∀ call ∈ calls.dropLast, ∃ reply, call.answer = .ok reply
  /-- The session fails as a call does, and only then. -/
  error_iff : ∀ f, result = .error f ↔ ∃ call ∈ calls, call.answer = .error f
  turns_eq : ∀ o, result = .ok o → o.turns = (replies calls).length
  limit_iff : ∀ o, result = .ok o → (o.reason = .turnLimitExceeded ↔
    o.turns = s.config.maxTurns ∧ ∀ reason, .done reason ∉ s.actions (replies calls))
  /-- Any other reason is that of the last action, the first one that ends a session. -/
  done_of_ne : ∀ o, result = .ok o → o.reason ≠ .turnLimitExceeded →
    ∃ front, s.actions (replies calls) = front ++ [.done o.reason] ∧ ∀ reason, .done reason ∉ front
  /-- A session gives up only after all corrective prompts. -/
  correctives_eq : ∀ o, result = .ok o → o.reason = .noActionableContent →
    (s.actions (replies calls)).count (.followUp .corrective) = s.config.correctiveRetries

/-! ## Sessions without a log -/

section Unlogged

variable {s : Session} (hlog : s.config.logDir = none) (env : Surroundings ω)

include hlog

theorem logged_of_logDir_eq_none (record : TurnLog → Disk → Except Failure Unit × Disk) (w : ω) :
    s.logged env record w = (.ok (), w) := by
  have hnone : s.log? = none := by rw [log?, hlog, Option.map_none]
  rw [logged, hnone]

theorem finish_of_logDir_eq_none (c : Conversation) (reason : DoneReason) (w : ω) :
    s.finish env c reason w = (.ok (s.outcome c reason), w) := by
  rw [finish, logged_of_logDir_eq_none hlog]

end Unlogged

/-- How a session without a log stops. -/
theorem Stops.of_logDir_eq_none {s : Session} {env : Surroundings ω} {p : Round ω}
    {calls : List Call} {result : Except Failure Outcome × ω} (hlog : s.config.logDir = none)
    (h : s.Stops env p calls result) :
    (p.left = 0 ∧ calls = [] ∧ result.1 = .ok (s.outcome p.conversation .turnLimitExceeded)) ∨
    (0 < p.left ∧ ∃ sent f, calls = [⟨sent, .error f⟩] ∧ result.1 = .error f) ∨
    (0 < p.left ∧ ∃ sent reply reason, calls = [⟨sent, .ok reply⟩] ∧
      p.conversation.tally.action s.config.correctiveRetries reply = .done reason ∧
      result.1 = .ok (s.outcome (p.conversation.receive reply) reason)) := by
  cases h with
  | limit => exact .inl ⟨rfl, rfl, by rw [finish_of_logDir_eq_none hlog]⟩
  | sendFails hsend => exact .inr (.inl ⟨Nat.succ_pos _, _, _, rfl, rfl⟩)
  | done hsend haction hlogged =>
    refine .inr (.inr ⟨Nat.succ_pos _, _, _, _, rfl, haction, ?_⟩)
    rw [finish_of_logDir_eq_none hlog]
  | logFails hsend hreact hlogged =>
    rw [logged_of_logDir_eq_none hlog] at hlogged
    cases hlogged

/-! ## The account -/

/-- The replies of a session are those of its exchanges and of the calls after them. -/
theorem replies_append (es : List Exchange) (calls : List Call) :
    replies (es.map Exchange.call ++ calls) = es.map Exchange.reply ++ replies calls := by
  induction es with
  | nil => rfl
  | cons e es ih =>
    rw [List.map_cons, List.map_cons, List.cons_append, List.cons_append, ← ih]
    rfl

theorem exists_ok_of_mem_map_call {es : List Exchange} {call : Call}
    (h : call ∈ es.map Exchange.call) : ∃ reply, call.answer = .ok reply := by
  obtain ⟨e, -, rfl⟩ := List.mem_map.1 h
  exact ⟨e.reply, rfl⟩

/-- The calls of exchanges do not fail. -/
theorem exists_error_iff (es : List Exchange) (calls : List Call) (f : Failure) :
    (∃ call ∈ es.map Exchange.call ++ calls, call.answer = .error f)
      ↔ ∃ call ∈ calls, call.answer = .error f := by
  constructor
  · rintro ⟨call, hcall, hfailed⟩
    rcases List.mem_append.1 hcall with hcall | hcall
    · obtain ⟨reply, hreply⟩ := exists_ok_of_mem_map_call hcall
      rw [hreply] at hfailed
      cases hfailed
    · exact ⟨call, hcall, hfailed⟩
  · rintro ⟨call, hcall, hfailed⟩
    exact ⟨call, List.mem_append_right _ hcall, hfailed⟩

/-- With at most one more call, only that call can fail. -/
theorem exists_ok_of_mem_dropLast (es : List Exchange) {calls : List Call}
    (h : calls.length ≤ 1) : ∀ call ∈ (es.map Exchange.call ++ calls).dropLast,
      ∃ reply, call.answer = .ok reply := by
  intro call hcall
  have hmem : call ∈ es.map Exchange.call := by
    match calls, h with
    | [], _ =>
      rw [List.append_nil] at hcall
      exact List.dropLast_subset _ hcall
    | [last], _ =>
      rw [List.dropLast_concat] at hcall
      exact hcall
  exact exists_ok_of_mem_map_call hmem

section Account

variable {s : Session} {env : Surroundings ω} {prompt : Text} {w : ω} {es : List Exchange}
  {q : Round ω} (h : s.Exchanges env (s.start prompt w) es q)

include h

theorem actions_eq_of_start : es.map Exchange.action = s.actions (es.map Exchange.reply) :=
  h.actions_eq

theorem length_add_left_of_start : es.length + q.left = s.config.maxTurns := by
  have hleft : s.config.maxTurns = q.left + es.length := h.left_eq
  omega

theorem turns_eq_of_start : q.conversation.turns = es.length := by
  have hturns : q.conversation.turns = 0 + es.length := h.turns_eq
  omega

theorem done_notMem_of_start (reason : DoneReason) :
    .done reason ∉ s.actions (es.map Exchange.reply) := by
  rw [← actions_eq_of_start h]
  intro hmem
  obtain ⟨e, he, haction⟩ := List.mem_map.1 hmem
  exact h.action_ne_done e he reason haction

theorem tally_eq_of_start :
    q.conversation.tally = (s.actions (es.map Exchange.reply)).foldl Tally.after {} := by
  rw [h.tally_eq, actions_eq_of_start h]
  rfl

/-- The counter of a session is the number of corrective prompts. -/
theorem correctives_eq_of_start : q.conversation.correctives
    = (s.actions (es.map Exchange.reply)).count (.followUp .corrective) := by
  have hcount := Tally.correctives_foldl_after {} (s.actions (es.map Exchange.reply))
  rw [← tally_eq_of_start h, Nat.zero_add] at hcount
  exact hcount

theorem correctives_le_of_start : q.conversation.correctives ≤ s.config.correctiveRetries := by
  have hle : ((s.actions (es.map Exchange.reply)).foldl Tally.after {}).correctives
      ≤ s.config.correctiveRetries := Tally.correctives_le (Nat.zero_le _) _
  rw [← tally_eq_of_start h] at hle
  exact hle

/-- The account of a session that reaches the turn limit. -/
theorem accounts_limit (hleft : q.left = 0) : s.Accounts (es.map Exchange.call ++ [])
    (.ok (s.outcome q.conversation .turnLimitExceeded)) := by
  have hlength := length_add_left_of_start h
  have hreplies : replies (es.map Exchange.call ++ []) = es.map Exchange.reply := by
    rw [replies_append]
    exact List.append_nil _
  have hturns : (s.outcome q.conversation .turnLimitExceeded).turns = es.length :=
    turns_eq_of_start h
  refine ⟨?_, ?_, ?_, ?_, ?_, ?_, ?_, ?_⟩
  · rw [hreplies, List.length_map]
    omega
  · rw [hreplies, ← correctives_eq_of_start h]
    exact correctives_le_of_start h
  · exact exists_ok_of_mem_dropLast es (Nat.zero_le _)
  · intro f
    rw [exists_error_iff]
    simp
  · intro o ho
    obtain rfl := Except.ok.inj ho
    rw [hturns, hreplies, List.length_map]
  · intro o ho
    obtain rfl := Except.ok.inj ho
    rw [hturns, hreplies]
    exact ⟨fun _ => ⟨by omega, done_notMem_of_start h⟩, fun _ => rfl⟩
  · intro o ho hne
    obtain rfl := Except.ok.inj ho
    exact absurd rfl hne
  · intro o ho hreason
    obtain rfl := Except.ok.inj ho
    cases hreason

/-- The account of a session whose generator fails. -/
theorem accounts_failed (hleft : 0 < q.left) (sent : List Message) (f : Failure) :
    s.Accounts (es.map Exchange.call ++ [⟨sent, .error f⟩]) (.error f) := by
  have hlength := length_add_left_of_start h
  have hreplies : replies (es.map Exchange.call ++ [⟨sent, .error f⟩]) = es.map Exchange.reply := by
    rw [replies_append]
    exact List.append_nil _
  refine ⟨?_, ?_, ?_, ?_, ?_, ?_, ?_, ?_⟩
  · rw [hreplies, List.length_map]
    omega
  · rw [hreplies, ← correctives_eq_of_start h]
    exact correctives_le_of_start h
  · exact exists_ok_of_mem_dropLast es (Nat.le_refl _)
  · intro g
    rw [exists_error_iff]
    simp
  all_goals
    intro o ho
    cases ho

/-- The account of a session that an action ends. -/
theorem accounts_done (hleft : 0 < q.left) (sent : List Message) {reply : Text}
    {reason : DoneReason}
    (haction : q.conversation.tally.action s.config.correctiveRetries reply = .done reason) :
    s.Accounts (es.map Exchange.call ++ [⟨sent, .ok reply⟩])
      (.ok (s.outcome (q.conversation.receive reply) reason)) := by
  have hlength := length_add_left_of_start h
  have hreplies : replies (es.map Exchange.call ++ [⟨sent, .ok reply⟩])
      = es.map Exchange.reply ++ [reply] := replies_append es _
  have hactions : s.actions (es.map Exchange.reply ++ [reply])
      = s.actions (es.map Exchange.reply) ++ [.done reason] := by
    rw [actions, Tally.actions_append, ← actions, ← tally_eq_of_start h, Tally.actions, haction]
    rfl
  have hcount : (s.actions (es.map Exchange.reply ++ [reply])).count (.followUp .corrective)
      = q.conversation.correctives := by
    rw [hactions, List.count_append, correctives_eq_of_start h]
    rfl
  have hturns : (s.outcome (q.conversation.receive reply) reason).turns = es.length + 1 := by
    rw [← turns_eq_of_start h]
    rfl
  -- no action ends a session for the turn limit; that reason comes from the loop alone
  have hcases := Tally.action_done_cases haction
  have hlimit : reason ≠ .turnLimitExceeded := by
    rintro rfl
    rcases hcases with hreason | ⟨hreason, -⟩ | ⟨hreason, -⟩ <;> cases hreason
  refine ⟨?_, ?_, ?_, ?_, ?_, ?_, ?_, ?_⟩
  · rw [hreplies, List.length_append, List.length_map, List.length_singleton]
    omega
  · rw [hreplies, hcount]
    exact correctives_le_of_start h
  · exact exists_ok_of_mem_dropLast es (Nat.le_refl _)
  · intro f
    rw [exists_error_iff]
    simp
  · intro o ho
    obtain rfl := Except.ok.inj ho
    rw [hturns, hreplies, List.length_append, List.length_map, List.length_singleton]
  · intro o ho
    obtain rfl := Except.ok.inj ho
    refine ⟨fun hreason => absurd hreason hlimit, ?_⟩
    rintro ⟨-, hnone⟩
    refine absurd ?_ (hnone reason)
    rw [hreplies, hactions]
    exact List.mem_append_right _ (List.mem_singleton.2 rfl)
  · intro o ho hne
    obtain rfl := Except.ok.inj ho
    rw [hreplies, hactions]
    exact ⟨_, rfl, done_notMem_of_start h⟩
  · intro o ho hreason
    obtain rfl := Except.ok.inj ho
    rw [hreplies, hcount]
    refine Nat.le_antisymm (correctives_le_of_start h) ?_
    obtain rfl : reason = .noActionableContent := hreason
    rcases hcases with hreason | ⟨hreason, -⟩ | ⟨-, hle⟩
    · cases hreason
    · cases hreason
    · exact hle

end Account

/-- A session without a log stops with an account of the calls that it made, and its counters never
exceed their limits on the way. -/
theorem run_accounts {s : Session} (hlog : s.config.logDir = none) (env : Surroundings ω)
    (prompt : Text) (w : ω) :
    s.Accounts (s.run env.recorded prompt (w, [])).2.2 (s.run env prompt w).1 ∧
      ∀ es q, s.Exchanges env (s.start prompt w) es q →
        es.map Exchange.action = s.actions (es.map Exchange.reply) ∧
        q.conversation.turns ≤ s.config.maxTurns ∧
        q.conversation.correctives ≤ s.config.correctiveRetries := by
  refine ⟨?_, fun es q hes => ⟨actions_eq_of_start hes, ?_, correctives_le_of_start hes⟩⟩
  · obtain ⟨es, q, calls, hes, hstops⟩ :=
      s.exists_exchanges env.recorded s.config.maxTurns (s.opening prompt) (w, [])
    -- the recorded calls are those of the exchanges, then those of the stop
    have hcalls := hstops.calls_eq
    rw [hes.calls_eq, List.nil_append] at hcalls
    rw [(s.run_recorded env prompt w []).1, run, hcalls]
    -- the turn limit, a failed call, or an action that ends the session
    rcases hstops.of_logDir_eq_none hlog with
      ⟨hleft, rfl, hresult⟩ | ⟨hleft, sent, f, rfl, hresult⟩ |
      ⟨hleft, sent, reply, reason, rfl, haction, hresult⟩
    · rw [hresult]
      exact accounts_limit hes hleft
    · rw [hresult]
      exact accounts_failed hes hleft sent f
    · rw [hresult]
      exact accounts_done hes hleft sent haction
  · rw [turns_eq_of_start hes, ← length_add_left_of_start hes]
    exact Nat.le_add_right ..

/-- Prepared replies, and a store without files. -/
def prepared : Surroundings Script where
  send := Script.send
  store :=
    { read _ w := (.ok none, w)
      write _ _ w := (.ok (), w)
      list _ _ w := (.ok none, w)
      suggest _ w := ([], w) }
  onDisk _ w := (.ok (), w)

/-- One allowed turn, and a reply that completes the session in it. -/
theorem run_accounts_prepared :
    let s : Session := ⟨{ maxTurns := 1 }, []⟩
    let w : Script := ⟨[.ok Tag.finMarker], []⟩
    s.config.logDir = none ∧
      s.Accounts (s.run prepared.recorded [] (w, [])).2.2 (s.run prepared [] w).1 := by
  intro s w
  have hlog : s.config.logDir = none := rfl
  exact ⟨hlog, (run_accounts hlog prepared [] w).1⟩

end Session

end Mend
