import Mend.Json.Value

/-!
# Messages

The entries of a transcript: who speaks and what is said.
-/

namespace Mend

/-- Who speaks. -/
inductive Role where
  /-- The description that opens a transcript. -/
  | system
  /-- The session. -/
  | user
  /-- The generator. -/
  | assistant
  deriving DecidableEq, Repr

/-- The name of a role. -/
def Role.name : Role → Text
  | system => "system".toList
  | user => "user".toList
  | assistant => "assistant".toList

/-- One entry of a transcript. -/
structure Message where
  /-- Who speaks. -/
  role : Role
  /-- What is said. -/
  content : Text
  deriving DecidableEq, Repr

namespace Message

/-- A message that opens a transcript. -/
def system (content : Text) : Message := ⟨.system, content⟩

/-- A message of the session. -/
def user (content : Text) : Message := ⟨.user, content⟩

/-- A message of the generator. -/
def assistant (content : Text) : Message := ⟨.assistant, content⟩

/-- The JSON form of a message. -/
def toJson (m : Message) : Json :=
  .object [("role".toList, .text m.role.name), ("content".toList, .text m.content)]

/-- The JSON form of a transcript. -/
def transcriptJson (ms : List Message) : Json := .array (ms.map toJson)

end Message

end Mend
