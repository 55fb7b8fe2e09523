import Mend.Session.Reaction

/-!
# Sessions

The conversation between a generator and a working tree. A session sends its transcript, reads a
turn from the reply and acts on it, until a turn ends it or the allowed number of replies is used up
(`Session.run`). The generator, the store and the disk of the logs are given as functions on a world
`ω` (`Surroundings`), of which nothing is assumed.

The recursion of `Session.converse` is on the number of replies that are left, so a session ends
whatever it is sent. A failure of the generator or of the log ends it at once.
-/

namespace Mend

/-- What a session runs in. -/
structure Surroundings (ω : Type) where
  /-- The reply to a transcript. -/
  send : List Message → ω → Except Failure Text × ω
  /-- The files that are read and patched. -/
  store : Store ω
  /-- An operation on the disk that receives the logs. -/
  onDisk : (Disk → Except Failure Unit × Disk) → ω → Except Failure Unit × ω

/-- The result of a session that ended without a failure. -/
structure Outcome where
  /-- The name of the session. -/
  id : Text
  /-- Why the session ended. -/
  reason : DoneReason
  /-- The number of replies received. -/
  turns : Nat
  /-- The paths written, in the order of their first write. -/
  written : List Text
  /-- The transcript. -/
  transcript : List Message
  /-- The last turn. -/
  last : Option Turn
  deriving DecidableEq, Repr

/-- A session: its settings and its name. -/
structure Session where
  /-- The settings. -/
  config : Config
  /-- The name. -/
  id : Text
  deriving DecidableEq, Repr

namespace Session

variable {ω : Type}

/-- The log of a session, if it keeps one. -/
def log? (s : Session) : Option TurnLog := s.config.logDir.map fun dir => ⟨dir, s.id⟩

/-- Writes to the log, if there is one. -/
def logged (s : Session) (env : Surroundings ω)
    (record : TurnLog → Disk → Except Failure Unit × Disk) (w : ω) : Except Failure Unit × ω :=
  match s.log? with
  | some log => env.onDisk (record log) w
  | none => (.ok (), w)

/-- The record of the last turn. -/
def record (c : Conversation) (response action : Text) (outbound : Option Text)
    (trace : PatchTrace) : TurnRecord :=
  { number := c.turns, action, response, turn := c.last.getD {}, outbound, trace }

/-- The result of a session that ends for a reason. -/
def outcome (s : Session) (c : Conversation) (reason : DoneReason) : Outcome :=
  { id := s.id, reason, turns := c.turns, written := c.written, transcript := c.messages,
    last := c.last }

/-- Ends a session for a reason. -/
def finish (s : Session) (env : Surroundings ω) (c : Conversation) (reason : DoneReason) (w : ω) :
    Except Failure Outcome × ω :=
  match s.logged env (fun log => log.writeTranscript c.messages) w with
  | (.ok _, w) => (.ok (s.outcome c reason), w)
  | (.error f, w) => (.error f, w)

/-- The action on the last turn of a conversation. -/
def nextAction (s : Session) (c : Conversation) (turn : Turn) : Action :=
  turn.action c.confirmed (s.config.correctiveRetries - c.correctives)

/-- What an action that does not end a session does and sends, with the name of the action. -/
def react (s : Session) (env : Surroundings ω) (action : Action) (c : Conversation) (w : ω) :
    Except DoneReason (Text × Reaction) × Conversation × ω :=
  match action with
  | .done reason => (.error reason, c, w)
  | .requestFiles requests =>
    let (r, c, w) := Reaction.serve env.store s.config requests c w
    (.ok ("request_files".toList, r), c, w)
  | .applyPatch patch =>
    let (r, c, w) := Reaction.applyPatch env.store s.config patch c w
    (.ok ("apply_patch".toList, r), c, w)
  | .followUp kind =>
    let (r, c) := Reaction.followUp kind c
    (.ok (kind.name, r), c, w)

/-- Goes on with a conversation while replies are left. -/
def converse (s : Session) (env : Surroundings ω) :
    Nat → Conversation → ω → Except Failure Outcome × ω
  -- the limit is reached only after the last allowed reply did not end the session
  | 0, c, w => s.finish env c .turnLimitExceeded w
  | left + 1, c, w =>
    match env.send c.messages w with
    | (.error f, w) => (.error f, w)
    | (.ok reply, w) =>
      let c := c.receive reply
      match s.react env (s.nextAction c (Turn.parse reply)) c w with
      -- the turn is logged before the session ends
      | (.error reason, c, w) =>
        let action := "done:".toList ++ reason.name
        match s.logged env (fun log => log.writeTurn (record c reply action none {})) w with
        | (.error f, w) => (.error f, w)
        | (.ok _, w) => s.finish env c reason w
      | (.ok (action, r), c, w) =>
        match s.logged env
            (fun log => log.writeTurn (record c reply action (some r.outbound) r.trace)) w with
        | (.error f, w) => (.error f, w)
        | (.ok _, w) => converse s env left (c.say r.outbound) w

/-- The conversation that a session opens. -/
def opening (s : Session) (prompt : Text) : Conversation :=
  .start (s.config.systemPrompt.getD Prompt.system) prompt

/-- Runs a session from a prompt. -/
def run (s : Session) (env : Surroundings ω) (prompt : Text) (w : ω) :
    Except Failure Outcome × ω :=
  s.converse env s.config.maxTurns (s.opening prompt) w

end Session

end Mend
