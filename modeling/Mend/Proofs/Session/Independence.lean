import Mathlib.Data.List.Forall2
import Mend.Proofs.Session.Accounting
import Mend.Proofs.Session.Calls

/-!
# Sessions on different stores

What a store holds reaches the messages of a session, the cache and the written paths, and nothing
else: with prepared replies, two sessions on different stores take one course
(`Session.run_parallel`). They act on the same replies, end for the same reason after the same
number of calls, and their transcripts differ in the messages of the session alone
(`Message.Alike`). A store that fails at everything is no exception.

Conversations that differ in these parts only stay so through a reply, a reaction, even in different
worlds, and an answer (`Conversation.Alike`).
-/

namespace Mend

variable {ω υ : Type}

/-! ## Messages and conversations -/

/-- Two messages of one role, which say the same if they are the generator's. -/
structure Message.Alike (m n : Message) : Prop where
  role_eq : m.role = n.role
  content_eq : m.role = .assistant → m.content = n.content

theorem Message.Alike.refl (m : Message) : m.Alike m := ⟨rfl, fun _ => rfl⟩

/-- What the session says may be anything. -/
theorem Message.alike_user (t u : Text) : (Message.user t).Alike (.user u) :=
  ⟨rfl, fun h => by cases h⟩

/-- Two conversations with the same turns and the same tally, whose transcripts are alike. -/
structure Conversation.Alike (c d : Conversation) : Prop where
  turns_eq : c.turns = d.turns
  last_eq : c.last = d.last
  tally_eq : c.tally = d.tally
  messages : List.Forall₂ Message.Alike c.messages d.messages

namespace Conversation.Alike

variable {c d : Conversation}

theorem refl (c : Conversation) : c.Alike c :=
  ⟨rfl, rfl, rfl, List.forall₂_same.2 fun m _ => .refl m⟩

theorem receive (h : c.Alike d) (reply : Text) : (c.receive reply).Alike (d.receive reply) where
  turns_eq := congrArg (· + 1) h.turns_eq
  last_eq := rfl
  tally_eq := h.tally_eq
  messages := List.rel_append h.messages (.cons (.refl _) .nil)

theorem say (h : c.Alike d) (t u : Text) : (c.say t).Alike (d.say u) :=
  { h with messages := List.rel_append h.messages (.cons (Message.alike_user t u) .nil) }

/-- The same action is taken on a reply. -/
theorem nextAction_eq (h : c.Alike d) (s : Session) (turn : Turn) :
    s.nextAction c turn = s.nextAction d turn := by
  have hconfirmed : c.confirmed = d.confirmed := congrArg Tally.confirmed h.tally_eq
  have hcorrectives : c.correctives = d.correctives := congrArg Tally.correctives h.tally_eq
  rw [Session.nextAction, Session.nextAction, hconfirmed, hcorrectives]

/-- A reaction reads what it needs from its own store, and the conversations stay alike. -/
theorem react (h : c.Alike d) {s : Session} {env : Surroundings ω} {other : Surroundings υ}
    {action : Action} {c' d' : Conversation} {w w' : ω} {u u' : υ}
    {x y : Except DoneReason (Text × Reaction)} (hc : s.react env action c w = (x, c', w'))
    (hd : s.react other action d u = (y, d', u')) : c'.Alike d' := by
  obtain ⟨cache, written, rfl⟩ := Session.react_conversation hc
  obtain ⟨cache', written', rfl⟩ := Session.react_conversation hd
  refine ⟨h.turns_eq, h.last_eq, ?_, h.messages⟩
  exact congrArg (Tally.after · action) h.tally_eq

end Conversation.Alike

/-! ## Prepared replies -/

/-- Two generators with the same replies left, which were sent transcripts that are alike. -/
structure Script.Alike (g h : Script) : Prop where
  replies_eq : g.replies = h.replies
  seen : List.Forall₂ (List.Forall₂ Message.Alike) g.seen h.seen

theorem Script.Alike.refl (g : Script) : g.Alike g :=
  ⟨rfl, List.forall₂_same.2 fun _ _ => List.forall₂_same.2 fun m _ => .refl m⟩

/-- They answer alike. -/
theorem Script.send_alike {g h : Script} (hgh : g.Alike h) {ms ns : List Message}
    (hms : List.Forall₂ Message.Alike ms ns) :
    Agrees Script.Alike (Script.send ms g) (Script.send ns h) := by
  have hseen := List.Forall₂.cons hms hgh.seen
  rw [send, send, ← hgh.replies_eq]
  cases g.replies with
  | nil => exact .of_rel ⟨rfl, hseen⟩ _
  | cons reply rest => exact .of_rel ⟨rfl, hseen⟩ _

/-- The surroundings with prepared replies in the place of the generator. -/
def Surroundings.scripted (env : Surroundings ω) : Surroundings (Script × ω) where
  send messages w :=
    let (answer, script) := Script.send messages w.1
    (answer, script, w.2)
  store := env.store.onPart Prod.snd fun w ω => (w.1, ω)
  onDisk op w :=
    let (answer, ω) := env.onDisk op w.2
    (answer, w.1, ω)

/-- The operations of the store leave the replies alone. -/
theorem Surroundings.store_simulates_scripted (env : Surroundings ω) (script : Script) :
    env.scripted.store.Simulates (fun w u => u = w.2 ∧ w.1 = script) env.store :=
  env.store.simulates_onPart Prod.snd (fun w ω => (w.1, ω)) Prod.fst (fun _ _ => rfl)
    (fun _ _ => rfl) script

namespace Session

/-! ## Runs -/

variable {env : Surroundings ω} {other : Surroundings υ}

/-- A reaction uses up no reply. -/
theorem react_scripted {s : Session} {action : Action} {c c' : Conversation} {w w' : Script × ω}
    {x : Except DoneReason (Text × Reaction)}
    (h : s.react env.scripted action c w = (x, c', w')) : w'.1 = w.1 :=
  react_rest env.store_simulates_scripted h

/-- Two results of one course: both sessions end for one reason, with transcripts that are alike, or
both fail with one failure. -/
inductive SameCourse : Except Failure Outcome → Except Failure Outcome → Prop
  | ended {o p : Outcome} (reason_eq : o.reason = p.reason) (turns_eq : o.turns = p.turns)
      (last_eq : o.last = p.last)
      (transcript : List.Forall₂ Message.Alike o.transcript p.transcript) :
      SameCourse (.ok o) (.ok p)
  | failed (f : Failure) : SameCourse (.error f) (.error f)

/-- Two sessions that took one course and made the same calls, up to what they said themselves. -/
structure Parallel (x : Except Failure Outcome × Script × ω)
    (y : Except Failure Outcome × Script × υ) : Prop where
  course : SameCourse x.1 y.1
  script : x.2.1.Alike y.2.1

theorem sameCourse_outcome {c d : Conversation} (h : c.Alike d) (s : Session)
    (reason : DoneReason) : SameCourse (.ok (s.outcome c reason)) (.ok (s.outcome d reason)) :=
  .ended rfl h.turns_eq h.last_eq h.messages

theorem converse_parallel {s : Session} (hlog : s.config.logDir = none) (left : Nat)
    {c d : Conversation} (h : c.Alike d) {w : Script × ω} {u : Script × υ}
    (hwu : w.1.Alike u.1) :
    Parallel (s.converse env.scripted left c w) (s.converse other.scripted left d u) := by
  induction left generalizing c d w u with
  | zero =>
    rw [converse, converse, finish_of_logDir_eq_none hlog, finish_of_logDir_eq_none hlog]
    exact ⟨sameCourse_outcome h s _, hwu⟩
  | succ left ih =>
    -- both generators give one answer, for which no store is asked
    obtain ⟨answer, script, script', hs, ht, hscript⟩ :=
      (Script.send_alike hwu h.messages).exists_eq
    have hsend : env.scripted.send c.messages w = (answer, script, w.2) := by
      simp only [Surroundings.scripted, hs]
    have hsend' : other.scripted.send d.messages u = (answer, script', u.2) := by
      simp only [Surroundings.scripted, ht]
    rw [converse, converse, hsend, hsend']
    cases answer with
    | error f => exact ⟨.failed f, hscript⟩
    | ok reply =>
      have hreply := h.receive reply
      dsimp only
      rw [← hreply.nextAction_eq s (Turn.parse reply)]
      -- both sessions take one action, in their own conversations and worlds
      generalize s.nextAction (c.receive reply) (Turn.parse reply) = action
      rcases hreact : s.react env.scripted action (c.receive reply) (script, w.2) with ⟨x, c', w'⟩
      rcases hreact' : s.react other.scripted action (d.receive reply) (script', u.2)
        with ⟨y, d', u'⟩
      have halike := hreply.react hreact hreact'
      have hleft : w'.1.Alike u'.1 := by
        rw [react_scripted hreact, react_scripted hreact']
        exact hscript
      rcases x with reason | ⟨name, r⟩ <;> rcases y with reason' | ⟨name', r'⟩
      all_goals simp only [logged_of_logDir_eq_none hlog, finish_of_logDir_eq_none hlog]
      -- whether a reaction ends the session depends on the action alone
      · obtain ⟨haction, -, -⟩ := react_error hreact
        obtain ⟨haction', -, -⟩ := react_error hreact'
        obtain rfl := Action.done.inj (haction.symm.trans haction')
        exact ⟨sameCourse_outcome halike s reason, hleft⟩
      · obtain ⟨haction, -, -⟩ := react_error hreact
        exact absurd haction (react_ok hreact' reason)
      · obtain ⟨haction', -, -⟩ := react_error hreact'
        exact absurd haction' (react_ok hreact reason')
      · exact ih (halike.say r.outbound r'.outbound) hleft

/-- A session without a log takes one course on any two stores, from one script of replies. Neither
what a store holds nor its failures end, shorten or lengthen it. -/
theorem run_parallel {s : Session} (hlog : s.config.logDir = none) (env : Surroundings ω)
    (other : Surroundings υ) (prompt : Text) (script : Script) (w : ω) (u : υ) :
    Parallel (s.run env.scripted prompt (script, w)) (s.run other.scripted prompt (script, u)) :=
  converse_parallel hlog s.config.maxTurns (.refl _) (.refl script)

/-- A store that fails at everything. -/
def unavailable : Surroundings Unit where
  send _ u := (.error (.ofText []), u)
  store :=
    { read _ u := (.error (.ofText []), u)
      write _ _ u := (.error (.ofText []), u)
      list _ _ u := (.error (.ofText []), u)
      suggest _ u := ([], u) }
  onDisk _ u := (.ok (), u)

/-- One file is asked for, of a store that has it and of a store that fails. -/
theorem run_parallel_sample :
    let s : Session := ⟨{}, []⟩
    let script : Script :=
      ⟨[.ok "%_Reply Required_%\n[\"f\"]".toList, .ok Tag.finMarker], []⟩
    let m : MemoryFiles := ⟨[(['f'], ['x'])], [], []⟩
    s.config.logDir = none ∧ Parallel (s.run unattended.scripted ['g', 'o'] (script, m))
      (s.run unavailable.scripted ['g', 'o'] (script, ())) := by
  intro s script m
  have hlog : s.config.logDir = none := rfl
  exact ⟨hlog, run_parallel hlog unattended unavailable _ script m ()⟩

end Session

end Mend
