import Mend.Proofs.Patch.Run
import Mend.Proofs.Session.Exchange

/-!
# Moments of a session

Between two rounds a session receives a reply (`Session.Receives`) and reacts to it: it answers
requests one by one, reads the tokens of a patch one by one, and writes the files of a patch one by
one. `Session.During` says what the cache and the world are at each moment of a reaction, and
`Session.Reaches` at each moment of a session. What a reaction leaves is one of its moments
(`Session.during_react`).

`Session.Shows` says what the answers to requests show for files, and `Session.Supplies` what the
engine is given for the files that it asks for.
-/

namespace Mend

namespace Session

variable {ω : Type} {s : Session} {env : Surroundings ω}

/-- A reply arrives in a round: the action on it, the conversation with it and the world. -/
inductive Receives (s : Session) (env : Surroundings ω) :
    Round ω → Action → Conversation → ω → Prop
  | intro {left : Nat} {c : Conversation} {w w₁ : ω} {reply : Text} {action : Action}
      (hsend : env.send c.messages w = (.ok reply, w₁))
      (haction : s.nextAction (c.receive reply) (Turn.parse reply) = action) :
      Receives s env ⟨left + 1, c, w⟩ action (c.receive reply) w₁

/-- The cache and the world at a moment of the reaction to an action. -/
inductive During (s : Session) (env : Surroundings ω) :
    Action → Conversation → ω → Cache → ω → Prop
  /-- Before anything is done. -/
  | begin (action : Action) (c : Conversation) (w : ω) : During s env action c w c.cache w
  /-- After some of the requests are answered. -/
  | serve {front back : List Request} {c : Conversation} {w w' : ω} {served : Reaction.Served}
      {cache : Cache}
      (hserve : Reaction.serveEach env.store s.config.listingDepth front {} c.cache w
        = (served, cache, w')) :
      During s env (.requestFiles (front ++ back)) c w cache w'
  /-- After some of the tokens of a patch are read, also of one that is rejected later. -/
  | patch {patch : Text} {front back : List Token} {c : Conversation} {w w' : ω}
      {e : Patch.Engine} {cache : Cache}
      (htokens : Patch.tokenize patch = .ok (front ++ back))
      (hrun : Patch.Engine.run .word s.config.strictContext (Reaction.load env.store) front {}
        (c.cache, w) = (.ok e, cache, w')) :
      During s env (.applyPatch patch) c w cache w'
  /-- After some of the files of a patch are written, or could not be. -/
  | deliver {patch : Text} {front back : List PatchedFile} {c c' : Conversation} {w w₁ w' : ω}
      {cache : Cache} {result : ApplyResult} {delivery : Reaction.Delivery}
      (happly : Patch.apply s.config.strictContext (Reaction.load env.store) patch (c.cache, w)
        = (.ok result, cache, w₁))
      (hfiles : result.files = front ++ back)
      (hdeliver : Reaction.deliver env.store front {} { c with cache } w₁ = (delivery, c', w')) :
      During s env (.applyPatch patch) c w c'.cache w'

/-- The cache and the world at a moment of a session that starts with the round `p₀`. -/
inductive Reaches (s : Session) (env : Surroundings ω) (p₀ : Round ω) : Cache → ω → Prop
  /-- Before the transcript is sent. -/
  | sending {es : List Exchange} {p : Round ω} (hes : s.Exchanges env p₀ es p) :
      Reaches s env p₀ p.conversation.cache p.world
  /-- In the reaction to a reply. -/
  | reacting {es : List Exchange} {p : Round ω} {action : Action} {c : Conversation} {w w' : ω}
      {cache : Cache} (hes : s.Exchanges env p₀ es p) (hreply : s.Receives env p action c w)
      (hduring : s.During env action c w cache w') : Reaches s env p₀ cache w'
  /-- After a turn is logged. -/
  | loggedTurn {cache : Cache} {w : ω} {log : TurnLog} (h : Reaches s env p₀ cache w)
      (hlog : s.log? = some log) (r : TurnRecord) :
      Reaches s env p₀ cache (env.onDisk (log.writeTurn r) w).2
  /-- After the transcript is logged. -/
  | loggedTranscript {cache : Cache} {w : ω} {log : TurnLog} (h : Reaches s env p₀ cache w)
      (hlog : s.log? = some log) (messages : List Message) :
      Reaches s env p₀ cache (env.onDisk (log.writeTranscript messages) w).2

/-- What a session shows for a path, and the world at a moment of the answer. -/
inductive Shows (s : Session) (env : Surroundings ω) (p₀ : Round ω) : Prompt.Entry → ω → Prop
  | intro {es : List Exchange} {p : Round ω} {front back : List Request} {c : Conversation}
      {w w' w₁ : ω} {served served₁ : Reaction.Served} {cache cache₁ : Cache} {e : Prompt.Entry}
      (hes : s.Exchanges env p₀ es p)
      (hreply : s.Receives env p (.requestFiles (front ++ back)) c w)
      (hserve : Reaction.serveEach env.store s.config.listingDepth (front ++ back) {} c.cache w
        = (served, cache, w'))
      (he : e ∈ served.files)
      (hmoment : Reaction.serveEach env.store s.config.listingDepth front {} c.cache w
        = (served₁, cache₁, w₁)) :
      Shows s env p₀ e w₁

/-- What the engine is given for a path that it asks for, and the world then. -/
inductive Supplies (s : Session) (env : Surroundings ω) (p₀ : Round ω) : Text → Loaded → ω → Prop
  | intro {es : List Exchange} {p : Round ω} {patch : Text} {front back : List Token} {n : Nat}
      {path : Text} {c : Conversation} {w w₁ : ω} {e : Patch.Engine} {cache : Cache}
      (hes : s.Exchanges env p₀ es p) (hreply : s.Receives env p (.applyPatch patch) c w)
      (htokens : Patch.tokenize patch = .ok (front ++ ⟨n, .newHeader (some path)⟩ :: back))
      (hrun : Patch.Engine.run .word s.config.strictContext (Reaction.load env.store) front {}
        (c.cache, w) = (.ok e, cache, w₁))
      (hnew : ApplyResult.content? e.flush.files path = none) :
      Supplies s env p₀ path (Reaction.load env.store (cache, w₁) path).1 w₁

/-! ## The last moment of a reaction -/

theorem during_serve {requests : List Request} {c c' : Conversation} {w w' : ω} {r : Reaction}
    (h : Reaction.serve env.store s.config requests c w = (r, c', w')) :
    s.During env (.requestFiles requests) c w c'.cache w' := by
  rcases hserve : Reaction.serveEach env.store s.config.listingDepth requests {} c.cache w
    with ⟨served, cache, w₁⟩
  rw [Reaction.serve, hserve] at h
  cases h
  rw [← List.append_nil requests]
  exact .serve hserve

/-- A patch that is rejected leaves what was read before. -/
theorem during_rejected {patch : Text} {c : Conversation} {w w' : ω} {cache : Cache}
    {err : PatchError}
    (h : Patch.apply s.config.strictContext (Reaction.load env.store) patch (c.cache, w)
      = (.error err, cache, w')) : s.During env (.applyPatch patch) c w cache w' := by
  rcases Patch.cases_of_apply_error h with ⟨-, hstate⟩ | ⟨front, token, back, e, htokens, hfront, -⟩
  · cases hstate
    exact .begin ..
  · -- the token that stops the engine comes after the last moment of reading
    exact .patch htokens hfront

theorem during_applyPatch {patch : Text} {c c' : Conversation} {w w' : ω} {r : Reaction}
    (h : Reaction.applyPatch env.store s.config patch c w = (r, c', w')) :
    s.During env (.applyPatch patch) c w c'.cache w' := by
  rw [Reaction.applyPatch] at h
  rcases happly : Patch.apply s.config.strictContext (Reaction.load env.store) patch (c.cache, w)
    with ⟨err | result, cache, w₁⟩
  · rw [happly, Prod.mk.injEq, Prod.mk.injEq] at h
    obtain ⟨-, rfl, rfl⟩ := h
    exact during_rejected happly
  · rw [happly] at h
    dsimp only at h
    rcases hdeliver : Reaction.deliver env.store result.files {} { c with cache } w₁
      with ⟨delivery, c₁, w₂⟩
    rw [hdeliver, Prod.mk.injEq, Prod.mk.injEq] at h
    obtain ⟨-, rfl, rfl⟩ := h
    exact .deliver happly (List.append_nil _).symm hdeliver

/-- A reaction ends in one of its moments. -/
theorem during_react {action : Action} {c c' : Conversation} {w w' : ω}
    {x : Except DoneReason (Text × Reaction)} (h : s.react env action c w = (x, c', w')) :
    s.During env action c w c'.cache w' := by
  cases action with
  | done reason =>
    cases h
    exact .begin ..
  | requestFiles requests =>
    rcases hserve : Reaction.serve env.store s.config requests c w with ⟨r, c₁, w₁⟩
    rw [react, hserve] at h
    cases h
    exact during_serve hserve
  | applyPatch patch =>
    rcases happly : Reaction.applyPatch env.store s.config patch c w with ⟨r, c₁, w₁⟩
    rw [react, happly] at h
    cases h
    exact during_applyPatch happly
  | followUp kind =>
    cases h
    cases kind <;> exact .begin ..

end Session

end Mend
