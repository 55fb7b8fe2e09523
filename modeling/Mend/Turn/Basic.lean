import Mend.Request.Basic

/-!
# Turns

The structured view of one reply: advisory texts, the requested files, the patch, the comment and
the signal, if any, that ends or redirects the session.
-/

namespace Mend

/-- The signal that a reply carries. -/
inductive Signal where
  /-- No signal. -/
  | none
  /-- The repair is complete. -/
  | fin
  /-- Nothing needs to change. -/
  | noChangesNeeded
  /-- The findings of a final review. -/
  | verificationReport
  /-- A final review is asked for. -/
  | readyForFinalCheck
  deriving DecidableEq, Repr

/-- The name of a signal. -/
def Signal.name : Signal → Text
  | none => "none".toList
  | fin => "fin".toList
  | noChangesNeeded => "no_changes_needed".toList
  | verificationReport => "verification_report".toList
  | readyForFinalCheck => "ready_for_final_check".toList

/-- The structured view of one reply. -/
structure Turn where
  /-- The analysis so far. -/
  thought : Option Text := none
  /-- The intended steps. -/
  plan : Option Text := none
  /-- What the finished change must achieve. -/
  goals : Option Text := none
  /-- The requested files and listings, in order, each path once. -/
  requests : List Request := []
  /-- The patch; empty when the reply has none. -/
  patch : Text := []
  /-- The comment; empty when the reply has none. -/
  comment : Text := []
  /-- The signal. -/
  signal : Signal := .none
  deriving DecidableEq, Repr

namespace Turn

/-- A turn that holds a signal and nothing else. -/
def ofSignal (signal : Signal) : Turn := { signal }

/-- Whether a turn carries nothing to act on. -/
def isUnproductive (t : Turn) : Bool :=
  t.signal == .none && t.requests.isEmpty && t.patch.trim.isEmpty

/-- An optional text as JSON. -/
def optionalText : Option Text → Json
  | none => .null
  | some t => .text t

/-- The JSON form of a turn. -/
def toJson (t : Turn) : Json :=
  .object
    [("thought".toList, optionalText t.thought),
     ("plan".toList, optionalText t.plan),
     ("correction_goals".toList, optionalText t.goals),
     ("required_files".toList, .array (t.requests.map Request.toJson)),
     ("patch_text".toList, .text t.patch),
     ("comment_text".toList, .text t.comment),
     ("terminal".toList, .text t.signal.name)]

end Turn

end Mend
