import Mend.Session.Cache
import Mend.Session.Message
import Mend.Turn.Action
import Mend.Turn.Parse

/-!
# Conversations

What a session knows between two replies (`Conversation`): the transcript, the last turn, the cached
contents, and what its decisions depend on. The goals of a session are those of the first reply that
states any (`Conversation.rememberGoals`).
-/

namespace Mend

/-- The state of a session. -/
structure Conversation where
  /-- The number of replies received. -/
  turns : Nat := 0
  /-- The transcript. -/
  messages : List Message := []
  /-- The last turn. -/
  last : Option Turn := none
  /-- The contents read and written. -/
  cache : Cache := {}
  /-- What the finished change must achieve. -/
  goals : Option Text := none
  /-- Whether a confirmation or a final review was asked for. -/
  confirmed : Bool := false
  /-- The number of corrective prompts sent. -/
  correctives : Nat := 0
  /-- The paths written, in the order of their first write. -/
  written : List Text := []
  deriving DecidableEq, Repr

namespace Conversation

/-- A conversation that opens with a description of the protocol and the prompt. -/
def start (system prompt : Text) : Conversation :=
  { messages := [.system system, .user prompt] }

/-- The conversation with one more message of the session. -/
def say (c : Conversation) (t : Text) : Conversation :=
  { c with messages := c.messages ++ [.user t] }

/-- The conversation that keeps the first goals it is told. -/
def rememberGoals (c : Conversation) (t : Turn) : Conversation :=
  { c with goals := c.goals.or (t.goals.bind Text.nonBlank?) }

/-- The conversation after a reply. -/
def receive (c : Conversation) (reply : Text) : Conversation :=
  let turn := Turn.parse reply
  { c.rememberGoals turn with
    turns := c.turns + 1
    messages := c.messages ++ [.assistant reply]
    last := some turn }

/-- The conversation with a path among those written. -/
def recordWritten (c : Conversation) (path : Text) : Conversation :=
  if path ∈ c.written then c else { c with written := c.written ++ [path] }

/-- The conversation after a write that succeeded. -/
def wrote (c : Conversation) (path content : Text) : Conversation :=
  { c.recordWritten path with cache := c.cache.insert (Cache.key path) content }

end Conversation

end Mend
