import Mend.Proofs.Json.RoundTrip
import Mend.Proofs.Session.Transcript
import Mend.Session.TurnLog

/-!
# Reading transcripts

What a transcript says to a reader. Each of its replies may have a message of the session right
after it (`Message.replies`), and in the transcript of a session only the reply that ended it has
none (`Message.replies_transcript`). The text of a transcript in the log reads as the transcript
(`Message.readTranscript?_jsonText`).
-/

namespace Mend

/-! ## Replies -/

namespace Message

/-- The message of the session that messages start with. -/
def outbound? : List Message → Option Text
  | ⟨.user, content⟩ :: _ => some content
  | _ => none

/-- The replies among messages, each with the message of the session right after it. -/
def replies : List Message → List (Text × Option Text)
  | [] => []
  | ⟨.assistant, content⟩ :: rest => (content, outbound? rest) :: replies rest
  | _ :: rest => replies rest

theorem replies_dialogue_append (turns : List (Text × Text)) (last : Option Text) :
    replies (dialogue turns ++ last.toList.map assistant)
      = turns.map (fun turn => (turn.1, some turn.2))
        ++ last.toList.map fun reply => (reply, none) := by
  induction turns with
  | nil =>
    cases last with
    | none => rfl
    | some reply => rfl
  | cons turn turns ih =>
    rw [dialogue_cons, List.cons_append, List.cons_append, assistant, user, replies, replies, ih]
    · rfl
    · nofun

/-- Every reply of a session has a message after it but for the one that ended it. -/
theorem replies_transcript (s : Session) (prompt : Text) (turns : List (Text × Text))
    (last : Option Text) : replies (s.transcript prompt turns last)
      = turns.map (fun turn => (turn.1, some turn.2))
        ++ last.toList.map fun reply => (reply, none) :=
  replies_dialogue_append turns last

end Message

/-! ## JSON forms -/

/-- The role of a name. -/
def Role.ofName? (name : Text) : Option Role :=
  [system, user, assistant].find? fun role => role.name = name

theorem Role.ofName?_name (role : Role) : ofName? role.name = some role := by
  cases role <;> decide

namespace Message

/-- A message in JSON. -/
def ofJson? (v : Json) : Option Message := do
  let role ← (← v.member? "role".toList).text?
  let content ← (← v.member? "content".toList).text?
  return ⟨← Role.ofName? role, content⟩

/-- A transcript in JSON. -/
def transcriptOf? : Json → Option (List Message)
  | .array items => items.mapM ofJson?
  | _ => none

/-- The transcript in a text. -/
def readTranscript? (t : Text) : Option (List Message) := (Json.read? t).bind transcriptOf?

/-- A message is read from its JSON form, in which the role comes behind the content. -/
theorem ofJson?_asRead (m : Message) : ofJson? m.toJson.asRead = some m := by
  have hle : Text.le ['c', 'o', 'n', 't', 'e', 'n', 't'] ['r', 'o', 'l', 'e'] = true := by decide
  have hread : m.toJson.asRead
      = .object [("content".toList, .text m.content), ("role".toList, .text m.role.name)] := by
    simp [toJson, Json.asRead, Json.membersAsRead, Json.ofMembers, Json.insertMember, hle]
  rw [hread]
  simp [ofJson?, Json.member?, List.lookup_cons, Json.text?, Role.ofName?_name]

theorem isReadable_transcriptJson (ms : List Message) :
    (transcriptJson ms).IsReadable Json.maxDepth := by
  have hitems : Json.AreReadable (ms.map toJson) (Json.maxDepth - 1) := by
    induction ms with
    | nil => trivial
    | cons m ms ih => exact ⟨⟨by decide, trivial, trivial, trivial⟩, ih⟩
  exact ⟨by decide, hitems⟩

theorem transcriptOf?_asRead (ms : List Message) :
    transcriptOf? (transcriptJson ms).asRead = some ms := by
  rw [transcriptJson, Json.asRead, transcriptOf?]
  induction ms with
  | nil => rfl
  | cons m ms ih =>
    rw [List.map_cons, Json.itemsAsRead, List.mapM_cons, ofJson?_asRead, ih]
    rfl

/-- The text of a transcript in a log reads as the transcript. -/
theorem readTranscript?_jsonText (ms : List Message) :
    readTranscript? (TurnLog.jsonText (transcriptJson ms)) = some ms := by
  rw [readTranscript?, TurnLog.jsonText, Json.read?_pretty (isReadable_transcriptJson ms)]
  exact transcriptOf?_asRead ms

end Message

end Mend
