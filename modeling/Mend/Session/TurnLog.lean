import Mend.Failure
import Mend.Json.Writer
import Mend.Session.Message
import Mend.Turn.Basic

/-!
# Turn logs

What a session leaves on the disk for each turn, in a directory of its own below the log directory
and the session's name: the reply (`response.txt`), the turn read from it (`parsed.json`), what was
sent in return (`outbound.md`, absent when the turn ended the session) and what was done about it
(`meta.json`). A session that ends adds its transcript (`transcript.json`).
-/

namespace Mend

/-- What a patch did in a turn. -/
structure PatchTrace where
  /-- The paths of the files that the patch produced. -/
  patchedFiles : List Text := []
  /-- The texts of the warnings. -/
  warnings : List Text := []
  /-- The text of the error that rejected the patch. -/
  error : Option Text := none
  deriving DecidableEq, Repr

/-- The record of one turn. -/
structure TurnRecord where
  /-- The number of the turn, from 1. -/
  number : Nat
  /-- What the session did. -/
  action : Text
  /-- The reply. -/
  response : Text
  /-- The turn read from the reply. -/
  turn : Turn
  /-- What was sent in return. -/
  outbound : Option Text
  /-- What a patch did. -/
  trace : PatchTrace
  deriving DecidableEq, Repr

namespace TurnRecord

/-- A member for a list of texts; none for no texts. -/
def listMember (name : String) (items : List Text) : List (Text × Json) :=
  if items.isEmpty then [] else [(name.toList, .array (items.map .text))]

/-- The description of a turn. -/
def describe (session : Text) (r : TurnRecord) : Json :=
  .object <|
    [("session_id".toList, .text session),
     ("turn".toList, .number (.nat r.number)),
     ("action".toList, .text r.action),
     ("response_bytes".toList, .number (.nat r.response.byteLength))] ++
    listMember "patched_files" r.trace.patchedFiles ++
    listMember "warnings" r.trace.warnings ++
    (r.trace.error.map fun e => ("patch_error".toList, .text e)).toList

end TurnRecord

/-- The log of one session. -/
structure TurnLog where
  /-- The log directory. -/
  dir : Text
  /-- The name of the session. -/
  session : Text
  deriving DecidableEq, Repr

namespace TurnLog

/-- The directory of the session. -/
def sessionDir (l : TurnLog) : Text := Path.join l.dir l.session

/-- The directory of a turn. -/
def turnDir (l : TurnLog) (number : Nat) : Text := Path.join l.sessionDir (Text.ofNat number)

/-- A value as the text of a file. -/
def jsonText (v : Json) : Text := v.pretty ++ [Text.lf]

/-- The files of a turn with their contents. -/
def turnFiles (l : TurnLog) (r : TurnRecord) : List (Text × Text) :=
  [("response.txt".toList, r.response), ("parsed.json".toList, jsonText r.turn.toJson)] ++
  (r.outbound.map fun t => ("outbound.md".toList, t)).toList ++
  [("meta.json".toList, jsonText (r.describe l.session))]

/-- Writes files into a directory, up to the first that fails. -/
def writeFiles (dir : Text) : List (Text × Text) → Disk → Except Failure Unit × Disk
  | [], d => (.ok (), d)
  | (name, content) :: rest, d =>
    match d.writeText (Path.join dir name) content with
    | .ok d => writeFiles dir rest d
    | .error e => (.error (e.failure "write" (Path.join dir name)), d)

/-- Makes a directory and writes files into it. -/
def writeDir (doing : String) (dir : Text) (files : List (Text × Text)) (d : Disk) :
    Except Failure Unit × Disk :=
  match d.makeDirs dir with
  | (.ok _, d) => writeFiles dir files d
  | (.error e, d) => (.error (e.failure doing dir), d)

/-- Writes the record of a turn. -/
def writeTurn (l : TurnLog) (r : TurnRecord) : Disk → Except Failure Unit × Disk :=
  writeDir "create turn dir" (l.turnDir r.number) (l.turnFiles r)

/-- Writes the transcript of the session. -/
def writeTranscript (l : TurnLog) (ms : List Message) : Disk → Except Failure Unit × Disk :=
  writeDir "create log dir" l.sessionDir
    [("transcript.json".toList, jsonText (Message.transcriptJson ms))]

end TurnLog

end Mend
