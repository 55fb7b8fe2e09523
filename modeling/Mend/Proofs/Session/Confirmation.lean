import Mend.Proofs.Session.Transcript
import Mend.Proofs.Turn.Rereading

/-!
# When a session ends without changes

A session ends for the reason that nothing needs to change when a reply says so after a review was
asked for. The session asks for a review in two ways: a first claim that nothing needs to change is
answered with the request to confirm it, and a request for a final check with that check. Either
prompt lets the next such claim end the session.

So the claim that ends a session need not have been confirmed. The first review decides: when it is
a confirmation, the claim was made before; when it is a final check, no reply before the last one
made the claim (`Session.run_noChangesNeeded`), and the session ends without a request to confirm it
(`Session.noChangesNeeded_unconfirmed`).
-/

namespace Mend

/-! ## Replies that claim that nothing needs to change -/

namespace Turn

/-- The marker of the claim gives its signal, unless the reply completes the session. -/
theorem signal_of_marker {reply : Text} (h : Text.hasInfix Tag.noChangesMarker reply = true) :
    (parse reply).signal = .fin ∨ (parse reply).signal = .noChangesNeeded := by
  rw [parse, if_pos h]
  split
  · exact .inl rfl
  · exact .inr rfl

/-- A reply that is one JSON value has no signal. -/
theorem signal_of_ofJson? {raw : Text} {t : Turn} (h : ofJson? raw = some t) :
    (finish t).signal = .none := by
  rw [ofJson?] at h
  split at h
  · cases h
  split at h
  · cases h
  split at h
  · cases h
  obtain ⟨v, -, rfl⟩ := Option.map_eq_some_iff.1 h
  rfl

/-- Nothing but the marker gives the signal. -/
theorem marker_of_signal {reply : Text} (h : (parse reply).signal = .noChangesNeeded) :
    Text.hasInfix Tag.noChangesMarker reply = true := by
  rw [parse] at h
  split at h
  · cases h
  split at h
  · assumption
  -- without a marker the reply is a JSON value or holds delimiters, and neither has this signal
  split at h
  · rename_i t hjson
    rw [signal_of_ofJson? hjson] at h
    cases h
  · rcases hscan : scanLines none (reply.lines.map Text.dropCr) with ⟨entries, signal⟩
    have hsignal := (scanLines_signal none (reply.lines.map Text.dropCr)).2
    rw [hscan] at hsignal
    rw [signal_ofDelimited hscan] at h
    exact absurd h hsignal

end Turn

/-! ## Reviews -/

/-- A session asks for a review. -/
def Action.IsReview (a : Action) : Prop :=
  a = .followUp .confirmNoChanges ∨ a = .followUp .finalCheck

instance Action.instDecidableIsReview (a : Action) : Decidable a.IsReview :=
  inferInstanceAs (Decidable (_ ∨ _))

namespace Tally

variable {retries : Nat} {t : Tally} {reply : Text}

/-- A tally remembers reviews, and nothing else confirms. -/
theorem confirmed_after (t : Tally) (a : Action) :
    (t.after a).confirmed = true ↔ t.confirmed = true ∨ a.IsReview := by
  cases a with
  | followUp kind => cases kind <;> simp [after, Action.IsReview]
  | _ => simp [after, Action.IsReview]

/-- The action on a reply with a signal, and what it can be without. -/
theorem action_of_signal (retries : Nat) (t : Tally) (reply : Text) :
    match (Turn.parse reply).signal with
    | .fin | .verificationReport => t.action retries reply = .done .completed
    | .noChangesNeeded => t.action retries reply
        = if t.confirmed then .done .noChangesNeeded else .followUp .confirmNoChanges
    | .readyForFinalCheck => t.action retries reply = .followUp .finalCheck
    | .none => ¬ (t.action retries reply).IsReview ∧
        t.action retries reply ≠ .done .noChangesNeeded := by
  cases hsignal : (Turn.parse reply).signal with
  | none =>
    dsimp only
    rw [action, Turn.action, hsignal]
    dsimp only
    -- serving files, applying a patch and pointing out that there is nothing to do are no reviews
    split
    · simp [Action.IsReview]
    split
    · simp [Action.IsReview]
    split <;> simp [Action.IsReview]
  | _ => simp only [action, Turn.action, hsignal]

/-- A session that ends without changes has asked for a review, and is told so by the last reply. -/
theorem of_done (h : t.action retries reply = .done .noChangesNeeded) :
    t.confirmed = true ∧ Text.hasInfix Tag.noChangesMarker reply = true := by
  have haction := t.action_of_signal retries reply
  rw [h] at haction
  split at haction
  · cases haction
  · cases haction
  · split at haction
    · exact ⟨‹_›, Turn.marker_of_signal ‹_›⟩
    · cases haction
  · cases haction
  · exact absurd rfl haction.2

/-- A session asks for a review when it is told to by a signal. -/
theorem review_cases (h : (t.action retries reply).IsReview) :
    (t.action retries reply = .followUp .confirmNoChanges ∧
        (Turn.parse reply).signal = .noChangesNeeded) ∨
      (t.action retries reply = .followUp .finalCheck ∧
        (Turn.parse reply).signal = .readyForFinalCheck) := by
  have haction := t.action_of_signal retries reply
  split at haction
  · rw [haction] at h
    exact absurd h (by decide)
  · rw [haction] at h
    exact absurd h (by decide)
  · split at haction
    · rw [haction] at h
      exact absurd h (by decide)
    · exact .inl ⟨haction, ‹_›⟩
  · exact .inr ⟨haction, ‹_›⟩
  · exact absurd h haction.1

/-- A session that goes on from a claim asks to confirm it, and does so only once. -/
theorem isReview_of_marker (hdone : ∀ reason, t.action retries reply ≠ .done reason)
    (hmarker : Text.hasInfix Tag.noChangesMarker reply = true) :
    t.confirmed = false ∧ t.action retries reply = .followUp .confirmNoChanges := by
  have haction := t.action_of_signal retries reply
  rcases Turn.signal_of_marker hmarker with hsignal | hsignal
  · rw [hsignal] at haction
    exact absurd haction (hdone _)
  -- a claim that is made again would have ended the session
  · rw [hsignal] at haction
    cases hconfirmed : t.confirmed with
    | true =>
      rw [hconfirmed] at haction
      exact absurd haction (hdone _)
    | false =>
      rw [hconfirmed] at haction
      exact ⟨rfl, haction⟩

end Tally

/-! ## Turns -/

/-- A turn in which the claim that nothing needs to change is answered with the request to confirm
it. -/
def IsConfirmation (turn : Text × Text) : Prop :=
  Text.hasInfix Tag.noChangesMarker turn.1 = true ∧
    ∃ comment goals, turn.2 = Prompt.verifyNoChanges comment goals

/-- A turn in which a final check is asked for and made. -/
def IsFinalCheck (turn : Text × Text) : Prop :=
  (Turn.parse turn.1).signal = .readyForFinalCheck ∧
    ∃ written goals, turn.2 = Prompt.finalCheck written goals

namespace Session

variable {ω : Type} {s : Session} {env : Surroundings ω} {p q : Round ω} {e : Exchange}
  {es : List Exchange}

namespace Step

/-- What is said in an exchange that follows up. -/
theorem outbound_of_followUp (h : s.Step env p e q) {kind : FollowUp}
    (haction : e.action = .followUp kind) :
    e.outbound = (Reaction.followUp kind (p.conversation.receive e.reply)).1.outbound := by
  cases h with
  | intro hsend hreact hlog =>
    dsimp only at haction
    rw [haction, react, Prod.mk.injEq, Except.ok.injEq, Prod.mk.injEq] at hreact
    exact congrArg Reaction.outbound hreact.1.2.symm

/-- A session remembers the reviews that it asked for. -/
theorem confirmed_iff (h : s.Step env p e q) : q.conversation.confirmed = true ↔
    p.conversation.confirmed = true ∨ e.action.IsReview := by
  have htally := p.conversation.tally.confirmed_after e.action
  rwa [← h.tally_eq] at htally

/-- The claim is made in an exchange only before a review, and it makes the session ask for one. -/
theorem marker_eq_false (h : s.Step env p e q)
    (hne : p.conversation.confirmed = true ∨ e.action ≠ .followUp .confirmNoChanges) :
    Text.hasInfix Tag.noChangesMarker e.reply = false := by
  rw [Bool.eq_false_iff]
  intro hmarker
  have hdone := h.action_ne_done
  rw [h.action_eq] at hdone hne
  obtain ⟨hconfirmed, haction⟩ := Tally.isReview_of_marker hdone hmarker
  rcases hne with hne | hne
  · exact absurd (hconfirmed.symm.trans hne) (by decide)
  · exact hne haction

/-- A review is asked for in return to the claim, or to the request for a final check. -/
theorem review_cases (h : s.Step env p e q) (hreview : e.action.IsReview) :
    IsConfirmation e.turn ∨
      IsFinalCheck e.turn ∧ Text.hasInfix Tag.noChangesMarker e.reply = false := by
  rw [h.action_eq] at hreview
  rcases Tally.review_cases hreview with ⟨haction, hsignal⟩ | ⟨haction, hsignal⟩
  all_goals
    rw [← h.action_eq] at haction
    have hsaid := h.outbound_of_followUp haction
    dsimp only [Reaction.followUp] at hsaid
  · exact .inl ⟨Turn.marker_of_signal hsignal, _, _, hsaid⟩
  · refine .inr ⟨⟨hsignal, _, _, hsaid⟩, h.marker_eq_false (.inr ?_)⟩
    rw [haction]
    decide

/-- Without a review neither the claim nor the request for a final check is made. -/
theorem of_not_isReview (h : s.Step env p e q) (hreview : ¬ e.action.IsReview) :
    Text.hasInfix Tag.noChangesMarker e.reply = false ∧
      (Turn.parse e.reply).signal ≠ .readyForFinalCheck := by
  refine ⟨h.marker_eq_false (.inr fun haction => hreview (.inl haction)), fun hsignal => ?_⟩
  have haction := p.conversation.tally.action_of_signal s.config.correctiveRetries e.reply
  rw [hsignal, ← h.action_eq] at haction
  exact hreview (.inr haction)

end Step

/-! ## Exchanges -/

namespace Exchanges

/-- After a review no reply that the session goes on from makes the claim. -/
theorem marker_eq_false (h : s.Exchanges env p es q) (hp : p.conversation.confirmed = true) :
    ∀ e ∈ es, Text.hasInfix Tag.noChangesMarker e.reply = false := by
  induction h with
  | nil p => exact fun e he => absurd he List.not_mem_nil
  | cons step rest ih =>
    exact List.forall_mem_cons.2
      ⟨step.marker_eq_false (.inl hp), ih (step.confirmed_iff.2 (.inl hp))⟩

/-- Exchanges in which a review is asked for have a first one. -/
theorem exists_review (h : s.Exchanges env p es q) (hp : p.conversation.confirmed = false)
    (hq : q.conversation.confirmed = true) : ∃ before e after, es = before ++ e :: after ∧
      (∀ u ∈ before, Text.hasInfix Tag.noChangesMarker u.reply = false ∧
        (Turn.parse u.reply).signal ≠ .readyForFinalCheck) ∧
      (∀ u ∈ after, Text.hasInfix Tag.noChangesMarker u.reply = false) ∧
      (IsConfirmation e.turn ∨
        IsFinalCheck e.turn ∧ Text.hasInfix Tag.noChangesMarker e.reply = false) := by
  induction h with
  | nil p => exact absurd (hp.symm.trans hq) (by decide)
  | @cons p p₁ q e es step rest ih =>
    -- either this exchange is the first review, or the session is as unconfirmed after it
    by_cases hreview : e.action.IsReview
    · exact ⟨[], e, es, rfl, fun u hu => absurd hu List.not_mem_nil,
        rest.marker_eq_false (step.confirmed_iff.2 (.inr hreview)), step.review_cases hreview⟩
    · have hp₁ : p₁.conversation.confirmed = false := by
        rw [Bool.eq_false_iff, ne_eq, step.confirmed_iff, hp]
        simp [hreview]
      obtain ⟨before, first, after, rfl, hbefore, hafter, hfirst⟩ := ih hp₁ hq
      exact ⟨e :: before, first, after, rfl,
        List.forall_mem_cons.2 ⟨step.of_not_isReview hreview, hbefore⟩, hafter, hfirst⟩

end Exchanges

/-! ## Sessions that end without changes -/

/-- A session that ends without changes was told so after a review, and the first review decides
whether the claim was made before: it was when that review asks to confirm the claim, and when it is
a final check no reply but the last one makes the claim. -/
theorem run_noChangesNeeded {s : Session} {env : Surroundings ω} {prompt : Text} {w : ω}
    {o : Outcome} (ho : (s.run env prompt w).1 = .ok o) (hreason : o.reason = .noChangesNeeded) :
    ∃ turns last, o.transcript = s.transcript prompt turns (some last) ∧
      Text.hasInfix Tag.noChangesMarker last = true ∧
      ∃ before turn after, turns = before ++ turn :: after ∧
        (∀ t ∈ before, Text.hasInfix Tag.noChangesMarker t.1 = false ∧
          (Turn.parse t.1).signal ≠ .readyForFinalCheck) ∧
        (IsConfirmation turn ∨ IsFinalCheck turn ∧
          ∀ t ∈ turns, Text.hasInfix Tag.noChangesMarker t.1 = false) := by
  obtain ⟨es, q, calls, hes, hstops⟩ :=
    s.exists_exchanges env s.config.maxTurns (s.opening prompt) w
  rcases hstops.ok_cases ho with ⟨-, rfl⟩ | ⟨sent, last, reason, rfl, haction, rfl⟩
  · cases hreason
  -- the claim ends the session only when a review was asked for, so one of the exchanges did that
  obtain rfl : reason = .noChangesNeeded := hreason
  have hlast : replies [⟨sent, .ok last⟩] = (some last).toList := rfl
  have htranscript := (outcome_of_start hes hstops hlast ho).1
  obtain ⟨hconfirmed, hmarker⟩ := Tally.of_done (t := q.conversation.tally) haction
  obtain ⟨before, first, after, rfl, hbefore, hafter, hfirst⟩ := hes.exists_review rfl hconfirmed
  refine ⟨_, last, htranscript, hmarker, before.map Exchange.turn, first.turn,
    after.map Exchange.turn, ?_, ?_, ?_⟩
  · rw [List.map_append, List.map_cons]
  · exact List.forall_mem_map.2 hbefore
  · refine hfirst.imp_right (And.imp_right fun hmarker => List.forall_mem_map.2 ?_)
    exact List.forall_mem_append.2
      ⟨fun u hu => (hbefore u hu).1, List.forall_mem_cons.2 ⟨hmarker, hafter⟩⟩

/-- The claim is made, confirmed and made again. -/
theorem run_noChangesNeeded_sample :
    let s : Session := ⟨{}, []⟩
    let w : Script := ⟨[.ok Tag.noChangesMarker, .ok Tag.noChangesMarker], []⟩
    ∃ o, (s.run prepared ['g', 'o'] w).1 = .ok o ∧ o.reason = .noChangesNeeded ∧
      ∃ turns last, o.transcript = s.transcript ['g', 'o'] turns (some last) ∧
        Text.hasInfix Tag.noChangesMarker last = true ∧
        ∃ before turn after, turns = before ++ turn :: after ∧
          (∀ t ∈ before, Text.hasInfix Tag.noChangesMarker t.1 = false ∧
            (Turn.parse t.1).signal ≠ .readyForFinalCheck) ∧
          (IsConfirmation turn ∨ IsFinalCheck turn ∧
            ∀ t ∈ turns, Text.hasInfix Tag.noChangesMarker t.1 = false) := by
  intro s w
  have hrun : (s.run prepared ['g', 'o'] w).1.toOption.map Outcome.reason
      = some .noChangesNeeded := by
    decide +kernel
  cases hresult : (s.run prepared ['g', 'o'] w).1 with
  | error f =>
    rw [hresult] at hrun
    cases hrun
  | ok o =>
    rw [hresult] at hrun
    have hreason : o.reason = .noChangesNeeded := Option.some.inj hrun
    exact ⟨o, rfl, hreason, run_noChangesNeeded hresult hreason⟩

/-! ## Claims after a final check -/

/-- A request for a final check is answered with it, which counts as a review. -/
theorem converse_finalCheck (hlog : s.config.logDir = none) {left : Nat} {c : Conversation}
    {w w' : ω} {reply : Text} (hsend : env.send c.messages w = (.ok reply, w'))
    (hsignal : (Turn.parse reply).signal = .readyForFinalCheck) :
    s.converse env (left + 1) c w = s.converse env left
      ({ c.receive reply with confirmed := true }.say
        (Prompt.finalCheck c.written (c.receive reply).goals)) w' := by
  have haction : s.nextAction (c.receive reply) (Turn.parse reply) = .followUp .finalCheck := by
    rw [nextAction, Turn.action, hsignal]
  rw [converse, hsend]
  dsimp only
  rw [haction, react, Reaction.followUp]
  dsimp only
  rw [logged_of_logDir_eq_none hlog]
  rfl

/-- After a review a claim that nothing needs to change ends the session. -/
theorem converse_claim (hlog : s.config.logDir = none) {left : Nat} {c : Conversation}
    {w w' : ω} {reply : Text} (hsend : env.send c.messages w = (.ok reply, w'))
    (hsignal : (Turn.parse reply).signal = .noChangesNeeded) (hconfirmed : c.confirmed = true) :
    s.converse env (left + 1) c w
      = (.ok (s.outcome (c.receive reply) .noChangesNeeded), w') := by
  have haction : s.nextAction (c.receive reply) (Turn.parse reply) = .done .noChangesNeeded := by
    rw [nextAction, Turn.action, hsignal, show (c.receive reply).confirmed = true from hconfirmed]
    rfl
  rw [converse, hsend]
  dsimp only
  rw [haction, react]
  dsimp only
  rw [logged_of_logDir_eq_none hlog]
  dsimp only
  rw [finish_of_logDir_eq_none hlog]

/-- After a final check the first claim that nothing needs to change ends the session. -/
theorem run_finalCheck_claim (hlog : s.config.logDir = none) {left : Nat}
    (hleft : s.config.maxTurns = left + 2) {prompt first last : Text} {w w₁ w₂ : ω}
    (hcheck : (Turn.parse first).signal = .readyForFinalCheck)
    (hclaim : (Turn.parse last).signal = .noChangesNeeded)
    {check : Text} (hsaid : check = Prompt.finalCheck [] ((s.opening prompt).receive first).goals)
    (hfirst : env.send (s.opening prompt).messages w = (.ok first, w₁))
    (hlast : env.send (s.transcript prompt [(first, check)] none) w₁ = (.ok last, w₂)) :
    ∃ o, (s.run env prompt w).1 = .ok o ∧ o.reason = .noChangesNeeded ∧
      o.transcript = s.transcript prompt [(first, check)] (some last) := by
  subst hsaid
  rw [run, hleft, converse_finalCheck hlog hfirst hcheck, converse_claim hlog hlast hclaim rfl]
  exact ⟨_, rfl, rfl, rfl⟩

/-- The one turn before the claim is not a confirmation. -/
theorem noChangesNeeded_unconfirmed :
    let s : Session := ⟨{}, []⟩
    let turn : Text × Text := (Tag.finalCheck.marker, Prompt.finalCheck [] none)
    let w : Script := ⟨[.ok turn.1, .ok Tag.noChangesMarker, .ok Tag.noChangesMarker], []⟩
    ∃ o, (s.run prepared ['g', 'o'] w).1 = .ok o ∧ o.reason = .noChangesNeeded ∧
      o.transcript = s.transcript ['g', 'o'] [turn] (some Tag.noChangesMarker) ∧
      ¬ ∃ t ∈ [turn], IsConfirmation t := by
  intro s turn w
  have hcheck : (Turn.parse turn.1).signal = .readyForFinalCheck := by decide +kernel
  have hgoals : ((s.opening ['g', 'o']).receive turn.1).goals = none := by decide +kernel
  have hclaim : (Turn.parse Tag.noChangesMarker).signal = .noChangesNeeded := by decide +kernel
  have hmarker : Text.hasInfix Tag.noChangesMarker turn.1 = false := by decide +kernel
  obtain ⟨o, ho, hreason, htranscript⟩ : ∃ o, (s.run prepared ['g', 'o'] w).1 = .ok o ∧
      o.reason = .noChangesNeeded ∧
      o.transcript = s.transcript ['g', 'o'] [turn] (some Tag.noChangesMarker) :=
    run_finalCheck_claim rfl rfl hcheck hclaim (congrArg _ hgoals.symm) rfl rfl
  refine ⟨o, ho, hreason, htranscript, ?_⟩
  rintro ⟨t, ht, hclaimed, -⟩
  obtain rfl := List.mem_singleton.1 ht
  exact absurd (hmarker.symm.trans hclaimed) (by decide)

end Session

end Mend
