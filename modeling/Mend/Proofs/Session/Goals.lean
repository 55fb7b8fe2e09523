import Mend.Proofs.Session.Moments
import Mend.Proofs.Session.Transcript
import Mend.Proofs.Turn.Rereading

/-!
# The goals of a session

The first reply that states goals fixes them: they are the goals of the session from then on, what
later replies say notwithstanding, and every message that the session says in return shows them
(`Session.run_keepsGoals`). Before that no message shows goals.

Each of the six messages takes the goals of the session (`Prompt.IsMessage`) and shows them between
their marks, also where its trailing blanks are removed (`Prompt.IsMessage.goalsBlock_infix`).
-/

namespace Mend

/-! ## Messages -/

namespace Text

/-- A part that ends visibly is not touched by trimming the end. -/
theorem infix_trimEnd {part t : Text} {c : Char} (hc : isBlank c = false)
    (h : part ++ [c] <:+: t) : part ++ [c] <:+: trimEnd t := by
  obtain ⟨front, back, rfl⟩ := h
  have hassoc : front ++ (part ++ [c]) ++ back = (front ++ part) ++ c :: back := by simp
  rw [hassoc, trimEnd_append_cons hc]
  exact ⟨front, trimEnd back, by simp⟩

end Text

namespace Prompt

/-- A text on lines of its own between an opening and a closing mark. -/
def block (name body : Text) : Text :=
  '<' :: name ++ '>' :: Text.lf :: body ++ Text.lf :: '<' :: '/' :: name ++ ['>']

/-- Goals between their marks. -/
def goalsBlock (goals : Text) : Text := block "correction_goals".toList goals

/-- A message that a session says, given the goals that it is made with. -/
inductive IsMessage (goals : Option Text) : Text → Prop
  | fileReply (files listings : List Entry) (notes : Notes) (h : notes.goals = goals) :
      IsMessage goals (fileReply files listings notes)
  | patchResult (report : PatchReport) : IsMessage goals (patchResult report goals)
  | patchError (err : PatchError) (patch : Text) : IsMessage goals (patchError err patch goals)
  | verifyNoChanges (comment : Option Text) : IsMessage goals (verifyNoChanges comment goals)
  | finalCheck (written : List Text) : IsMessage goals (finalCheck written goals)
  | corrective : IsMessage goals (corrective goals)

theorem note_eq_block {name body : Text} (h : body.nonBlank? = some body) :
    note name (some body) = [Text.lf] ++ block name body ++ [Text.lf] := by
  simp [note, h, marked, line, block]

/-- A block is left as it is where the message around it is trimmed. -/
theorem block_infix_trimEnd {name body : Text} (h : body.nonBlank? = some body)
    (front back : Text) :
    block name body <:+: Text.trimEnd (front ++ note name (some body) ++ back) := by
  have hpart : block name body <:+: front ++ note name (some body) ++ back := by
    rw [note_eq_block h]
    exact (List.infix_append _ _ _).trans (List.infix_append _ _ _)
  exact Text.infix_trimEnd (by decide) hpart

/-- Every message shows the goals that it is made with. -/
theorem IsMessage.goalsBlock_infix {goals t : Text} (h : goals.nonBlank? = some goals)
    (ht : IsMessage (some goals) t) : goalsBlock goals <:+: t := by
  cases ht with
  | fileReply files listings notes hnotes =>
    rw [Prompt.fileReply, hnotes]
    exact block_infix_trimEnd h _ _
  | patchResult report => exact block_infix_trimEnd h _ _
  | patchError err patch => exact block_infix_trimEnd h _ _
  | verifyNoChanges comment => exact block_infix_trimEnd h _ _
  | finalCheck written => exact block_infix_trimEnd h _ _
  | corrective =>
    -- the goals are the last part of this one
    rw [Prompt.corrective, ← List.append_nil (_ ++ goalsNote (some goals))]
    exact block_infix_trimEnd h _ _

end Prompt

namespace Turn

/-- Goals that are read are trimmed and not empty. -/
theorem nonBlank?_goals_parse (reply : Text) :
    (parse reply).goals.bind Text.nonBlank? = (parse reply).goals := by
  cases hgoals : (parse reply).goals with
  | none => rfl
  | some goals =>
    have hparsed := isParsed_parse reply
    have hne : goals ≠ [] := fun heq => hparsed.goals_ne (heq ▸ hgoals)
    have htrim : goals.trim = goals := by
      refine hparsed.trim_eq goals (List.mem_map.2 ⟨.goals, by decide, ?_⟩)
      rw [body, hgoals, Option.getD_some]
    simp [Text.nonBlank?, htrim, hne]

end Turn

/-! ## Stated goals -/

/-- The first goals that replies state. -/
def statedGoals (replies : List Text) : Option Text :=
  replies.findSome? fun reply => (Turn.parse reply).goals

theorem statedGoals_cons (reply : Text) (replies : List Text) :
    statedGoals (reply :: replies) = (Turn.parse reply).goals.or (statedGoals replies) := by
  rw [statedGoals, List.findSome?_cons]
  cases (Turn.parse reply).goals <;> rfl

theorem statedGoals_append (replies more : List Text) :
    statedGoals (replies ++ more) = (statedGoals replies).or (statedGoals more) :=
  List.findSome?_append

theorem statedGoals_eq_none {replies : List Text}
    (h : ∀ reply ∈ replies, (Turn.parse reply).goals = none) : statedGoals replies = none :=
  List.findSome?_eq_none_iff.2 h

/-- The first reply that states goals decides. -/
theorem statedGoals_of_first {before after : List Text} {reply goals : Text}
    (hbefore : ∀ r ∈ before, (Turn.parse r).goals = none)
    (hgoals : (Turn.parse reply).goals = some goals) :
    statedGoals (before ++ reply :: after) = some goals := by
  rw [statedGoals_append, statedGoals_eq_none hbefore, statedGoals_cons, hgoals]
  rfl

/-- A reply adds its goals where there are none. -/
theorem Conversation.goals_receive (c : Conversation) (reply : Text) :
    (c.receive reply).goals = c.goals.or (Turn.parse reply).goals :=
  congrArg c.goals.or (Turn.nonBlank?_goals_parse reply)

namespace Session

variable {ω : Type} {s : Session} {env : Surroundings ω}

/-- No reaction changes the goals. -/
theorem react_goals {action : Action} {c c' : Conversation} {w w' : ω}
    {x : Except DoneReason (Text × Reaction)} (h : s.react env action c w = (x, c', w')) :
    c'.goals = c.goals := by
  obtain ⟨cache, written, rfl⟩ := react_conversation h
  rfl

theorem applyPatch_isMessage {store : Store ω} {cfg : Config} {patch : Text} {r : Reaction}
    {c c' : Conversation} {w w' : ω} (h : Reaction.applyPatch store cfg patch c w = (r, c', w')) :
    Prompt.IsMessage c.goals r.outbound := by
  rw [Reaction.applyPatch] at h
  rcases happly : Patch.apply cfg.strictContext (Reaction.load store) patch (c.cache, w)
    with ⟨err | result, cache, w₁⟩
  · rw [happly, Prod.mk.injEq] at h
    obtain ⟨rfl, -⟩ := h
    dsimp only
    exact .patchError err patch
  · rw [happly] at h
    dsimp only at h
    rcases hdeliver : Reaction.deliver store result.files {} { c with cache } w₁
      with ⟨delivery, c₁, w₂⟩
    rw [hdeliver, Prod.mk.injEq] at h
    obtain ⟨rfl, -⟩ := h
    -- writing the files leaves the goals alone
    obtain ⟨cache', written, rfl⟩ := deliver_conversation hdeliver
    dsimp only
    exact .patchResult _

/-- What is said in a reaction is a message that is made with the goals of the session. -/
theorem react_isMessage {action : Action} {c c' : Conversation} {w w' : ω} {name : Text}
    {r : Reaction} (h : s.react env action c w = (.ok (name, r), c', w')) :
    Prompt.IsMessage c.goals r.outbound := by
  cases action with
  | done reason => cases h
  | requestFiles requests =>
    rw [react, Reaction.serve, Prod.mk.injEq, Except.ok.injEq, Prod.mk.injEq] at h
    obtain ⟨⟨-, rfl⟩, -⟩ := h
    dsimp only
    exact .fileReply _ _ _ rfl
  | applyPatch patch =>
    rcases hpatch : Reaction.applyPatch env.store s.config patch c w with ⟨r₁, c₁, w₁⟩
    rw [react, hpatch, Prod.mk.injEq, Except.ok.injEq, Prod.mk.injEq] at h
    obtain ⟨⟨-, rfl⟩, -⟩ := h
    exact applyPatch_isMessage hpatch
  | followUp kind =>
    rw [react, Prod.mk.injEq, Except.ok.injEq, Prod.mk.injEq] at h
    obtain ⟨⟨-, rfl⟩, -⟩ := h
    cases kind
    all_goals dsimp only [Reaction.followUp]
    · exact .verifyNoChanges _
    · exact .finalCheck _
    · exact .corrective

/-! ## Exchanges -/

section Exchanges

variable {p q : Round ω} {e : Exchange} {es : List Exchange}

theorem Step.goals_eq (h : s.Step env p e q) :
    q.conversation.goals = p.conversation.goals.or (Turn.parse e.reply).goals := by
  obtain ⟨cache, written, hc⟩ := h.conversation_eq
  rw [hc, ← Conversation.goals_receive]

/-- What is said in an exchange is made with the goals that the reply may have added. -/
theorem Step.isMessage (h : s.Step env p e q) :
    Prompt.IsMessage (p.conversation.goals.or (Turn.parse e.reply).goals) e.outbound := by
  cases h with
  | intro hsend hreact hlog =>
    rw [← Conversation.goals_receive]
    exact react_isMessage hreact

theorem Exchanges.goals_eq (h : s.Exchanges env p es q) : q.conversation.goals
    = p.conversation.goals.or (statedGoals (es.map Exchange.reply)) := by
  induction h with
  | nil p => exact (Option.or_none).symm
  | cons step rest ih => rw [ih, step.goals_eq, List.map_cons, statedGoals_cons, Option.or_assoc]

/-- What is said in a turn is made with the goals of the replies so far. -/
theorem Exchanges.isMessage (h : s.Exchanges env p es q) {before after : List (Text × Text)}
    {turn : Text × Text} (hturns : es.map Exchange.turn = before ++ turn :: after) :
    Prompt.IsMessage
      (p.conversation.goals.or (statedGoals ((before ++ [turn]).map Prod.fst))) turn.2 := by
  -- the turns in front are taken off one by one, and their goals are already in the conversation
  induction h generalizing before with
  | nil p => simp at hturns
  | cons step rest ih =>
    rw [List.map_cons] at hturns
    cases before with
    | nil =>
      obtain ⟨rfl, -⟩ := List.cons.inj hturns
      have hmessage := step.isMessage
      simpa [Exchange.turn, statedGoals_cons, statedGoals_eq_none] using hmessage
    | cons first before =>
      obtain ⟨rfl, hrest⟩ := List.cons.inj hturns
      have hmessage := ih hrest
      rw [step.goals_eq, Option.or_assoc, ← statedGoals_cons] at hmessage
      exact hmessage

end Exchanges

/-! ## Sessions -/

/-- A session that starts with the round `p₀` is in the conversation `c` at some moment after the
replies. -/
inductive Passes (s : Session) (env : Surroundings ω) (p₀ : Round ω) :
    List Text → Conversation → Prop
  /-- Before the transcript is sent. -/
  | sending {es : List Exchange} {p : Round ω} (hes : s.Exchanges env p₀ es p) :
      Passes s env p₀ (es.map Exchange.reply) p.conversation
  /-- When a reply has arrived, and while files are read for it. -/
  | reading {es : List Exchange} {left : Nat} {c : Conversation} {w w₁ w' : ω} {reply : Text}
      {cache : Cache} (hes : s.Exchanges env p₀ es ⟨left + 1, c, w⟩)
      (hsend : env.send c.messages w = (.ok reply, w₁))
      (hduring : s.During env (s.nextAction (c.receive reply) (Turn.parse reply)) (c.receive reply)
        w₁ cache w') :
      Passes s env p₀ (es.map Exchange.reply ++ [reply]) { c.receive reply with cache }
  /-- While the files of a patch are written. -/
  | writing {es : List Exchange} {left : Nat} {c c' : Conversation} {w w₁ w₂ w' : ω}
      {reply patch : Text} {front back : List PatchedFile} {cache : Cache} {result : ApplyResult}
      {delivery : Reaction.Delivery} (hes : s.Exchanges env p₀ es ⟨left + 1, c, w⟩)
      (hsend : env.send c.messages w = (.ok reply, w₁))
      (haction : s.nextAction (c.receive reply) (Turn.parse reply) = .applyPatch patch)
      (happly : Patch.apply s.config.strictContext (Reaction.load env.store) patch
        ((c.receive reply).cache, w₁) = (.ok result, cache, w₂))
      (hfiles : result.files = front ++ back)
      (hdeliver : Reaction.deliver env.store front {} { c.receive reply with cache } w₂
        = (delivery, c', w')) :
      Passes s env p₀ (es.map Exchange.reply ++ [reply]) c'
  /-- After the reaction, before anything is said. -/
  | reacted {es : List Exchange} {left : Nat} {c c' : Conversation} {w w₁ w' : ω} {reply : Text}
      {x : Except DoneReason (Text × Reaction)} (hes : s.Exchanges env p₀ es ⟨left + 1, c, w⟩)
      (hsend : env.send c.messages w = (.ok reply, w₁))
      (hreact : s.react env (s.nextAction (c.receive reply) (Turn.parse reply)) (c.receive reply) w₁
        = (x, c', w')) :
      Passes s env p₀ (es.map Exchange.reply ++ [reply]) c'

section Start

variable {s : Session} {env : Surroundings ω} {prompt : Text} {w : ω}

theorem goals_eq_of_start {es : List Exchange} {q : Round ω}
    (h : s.Exchanges env (s.start prompt w) es q) :
    q.conversation.goals = statedGoals (es.map Exchange.reply) := by
  have hgoals := h.goals_eq
  rwa [show (s.start prompt w).conversation.goals = none from rfl, Option.none_or] at hgoals

/-- The goals after one more reply. -/
theorem goals_receive_of_start {es : List Exchange} {left : Nat} {c : Conversation} {w' : ω}
    (h : s.Exchanges env (s.start prompt w) es ⟨left, c, w'⟩) (reply : Text) :
    (c.receive reply).goals = statedGoals (es.map Exchange.reply ++ [reply]) := by
  have hgoals : c.goals = statedGoals (es.map Exchange.reply) := goals_eq_of_start h
  rw [Conversation.goals_receive, hgoals, statedGoals_append, statedGoals_cons]
  exact congrArg _ (Option.or_none).symm

/-- At every moment the goals are the first that were stated. -/
theorem Passes.goals_eq {replies : List Text} {c : Conversation}
    (h : s.Passes env (s.start prompt w) replies c) : c.goals = statedGoals replies := by
  cases h with
  | sending hes => exact goals_eq_of_start hes
  | reading hes hsend hduring => exact goals_receive_of_start hes _
  | writing hes hsend haction happly hfiles hdeliver =>
    obtain ⟨cache, written, rfl⟩ := deliver_conversation hdeliver
    exact goals_receive_of_start hes _
  | reacted hes hsend hreact =>
    rw [react_goals hreact]
    exact goals_receive_of_start hes _

/-! ## Turns of a transcript -/

section Turns

variable {es : List Exchange} {q : Round ω} (h : s.Exchanges env (s.start prompt w) es q)
  {turns before after : List (Text × Text)} (hpart : turns <+: es.map Exchange.turn)

include h hpart

/-- What is said in a turn of a transcript is made with the goals of the replies up to it. -/
theorem isMessage_of_start {turn : Text × Text} (hturns : turns = before ++ turn :: after) :
    Prompt.IsMessage (statedGoals ((before ++ [turn]).map Prod.fst)) turn.2 := by
  obtain ⟨later, hlater⟩ := hpart
  rw [hturns, List.append_assoc, List.cons_append] at hlater
  have hmessage := h.isMessage hlater.symm
  rwa [show (s.start prompt w).conversation.goals = none from rfl, Option.none_or] at hmessage

/-- From the turn that states goals on, every turn shows them. -/
theorem goals_shown_of_start {turn : Text × Text} {goals : Text}
    (hturns : turns = before ++ turn :: after)
    (hbefore : ∀ t ∈ before, (Turn.parse t.1).goals = none)
    (hgoals : (Turn.parse turn.1).goals = some goals) :
    ∀ t ∈ turn :: after, Prompt.IsMessage (some goals) t.2 ∧ Prompt.goalsBlock goals <:+: t.2 := by
  intro t ht
  obtain ⟨between, later, hsplit⟩ := List.append_of_mem ht
  -- the turn that states the goals stands in front of this one, or is this one
  obtain ⟨more, hmore⟩ : ∃ more, between ++ [t] = turn :: more := by
    cases between with
    | nil =>
      obtain ⟨rfl, -⟩ := List.cons.inj hsplit
      exact ⟨[], rfl⟩
    | cons u between =>
      obtain ⟨rfl, -⟩ := List.cons.inj hsplit
      exact ⟨between ++ [t], rfl⟩
  rw [hsplit, ← List.append_assoc] at hturns
  have hmessage := isMessage_of_start h hpart hturns
  rw [List.append_assoc, hmore, List.map_append, List.map_cons,
    statedGoals_of_first (by simpa using hbefore) hgoals] at hmessage
  have hvisible := Turn.nonBlank?_goals_parse turn.1
  rw [hgoals, Option.bind_some] at hvisible
  exact ⟨hmessage, hmessage.goalsBlock_infix hvisible⟩

/-- Before goals are stated nothing is said with goals. -/
theorem isMessage_none_of_start (hturns : turns = before ++ after)
    (hnone : ∀ t ∈ before, (Turn.parse t.1).goals = none) :
    ∀ t ∈ before, Prompt.IsMessage none t.2 := by
  intro t ht
  obtain ⟨front, between, rfl⟩ := List.append_of_mem ht
  rw [List.append_assoc, List.cons_append] at hturns
  have hmessage := isMessage_of_start h hpart hturns
  rwa [statedGoals_eq_none] at hmessage
  intro reply hreply
  obtain ⟨u, hu, rfl⟩ := List.mem_map.1 hreply
  refine hnone u ?_
  rw [List.append_cons]
  exact List.mem_append_left _ hu

end Turns

end Start

/-! ## Kept goals -/

/-- How a session keeps its goals, in its state and in what it says. -/
structure KeepsGoals (s : Session) (env : Surroundings ω) (prompt : Text) (w : ω) : Prop where
  /-- Once a reply has stated goals they are the goals of the session. -/
  goals_eq_some : ∀ {before after : List Text} {reply goals : Text} {c : Conversation},
    s.Passes env (s.start prompt w) (before ++ reply :: after) c →
    (∀ r ∈ before, (Turn.parse r).goals = none) → (Turn.parse reply).goals = some goals →
    c.goals = some goals
  goals_eq_none : ∀ {replies : List Text} {c : Conversation},
    s.Passes env (s.start prompt w) replies c → (∀ r ∈ replies, (Turn.parse r).goals = none) →
    c.goals = none
  /-- So does every transcript: what is said in the turn that states goals and in any later one
  shows them, and what is said before is made without goals. -/
  exists_turns : ∀ {ms : List Message}, s.Sends env prompt w ms →
    ∃ turns last, ms = s.transcript prompt turns last ∧
      (∀ {before turn after goals}, turns = before ++ turn :: after →
        (∀ t ∈ before, (Turn.parse t.1).goals = none) → (Turn.parse turn.1).goals = some goals →
        ∀ t ∈ turn :: after, Prompt.IsMessage (some goals) t.2 ∧
          Prompt.goalsBlock goals <:+: t.2) ∧
      ∀ {before after}, turns = before ++ after →
        (∀ t ∈ before, (Turn.parse t.1).goals = none) →
        ∀ t ∈ before, Prompt.IsMessage none t.2

/-- Every session keeps the first goals that it is told, wherever and however it ends. -/
theorem run_keepsGoals (s : Session) (env : Surroundings ω) (prompt : Text) (w : ω) :
    s.KeepsGoals env prompt w := by
  refine ⟨?_, ?_, ?_⟩
  · intro before after reply goals c hpasses hbefore hgoals
    rw [hpasses.goals_eq]
    exact statedGoals_of_first hbefore hgoals
  · intro replies c hpasses hnone
    rw [hpasses.goals_eq]
    exact statedGoals_eq_none hnone
  · intro ms hsends
    obtain ⟨es, q, turns, last, hes, hpart, rfl⟩ := hsends.exists_turns
    exact ⟨turns, last, rfl, goals_shown_of_start hes hpart, isMessage_none_of_start hes hpart⟩

end Session

end Mend
