import Mend.Json.Writer
import Mend.Tag
import Mend.Turn.Basic

/-!
# Writing a turn

The canonical reply of a turn: each section that is not empty, under its delimiter and in a fixed
order, then the delimiter of the signal. A completion signal is its marker alone.
-/

namespace Mend

namespace Turn

/-- A section under its delimiter; nothing for an empty one. -/
def sectionBlock (tag : Tag) (body : Text) : List Text :=
  if body.isEmpty then [] else [tag.marker ++ Text.lf :: body]

/-- The requests as a JSON array; empty when there are none. -/
def requestsText (rs : List Request) : Text :=
  if rs.isEmpty then [] else (Json.array (rs.map Request.toJson)).compact

/-- The delimiter that a signal adds at the end. -/
def signalBlock : Signal → List Text
  | .verificationReport => [Tag.marker .verificationReport]
  | .readyForFinalCheck => [Tag.marker .finalCheck]
  | _ => []

/-- The sections of a turn in their canonical order. -/
def blocks (t : Turn) : List Text :=
  sectionBlock .thought (t.thought.getD []) ++
  sectionBlock .plan (t.plan.getD []) ++
  sectionBlock .goals (t.goals.getD []) ++
  sectionBlock .requests (requestsText t.requests) ++
  sectionBlock .patch t.patch ++
  sectionBlock .comment t.comment ++
  signalBlock t.signal

/-- The canonical reply of a turn. -/
def toTagText (t : Turn) : Text :=
  match t.signal with
  | .fin => Tag.finMarker
  | .noChangesNeeded => Tag.noChangesMarker
  | _ => Text.joinWith [Text.lf] t.blocks

end Turn

end Mend
