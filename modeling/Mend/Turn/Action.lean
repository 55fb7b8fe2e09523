import Mend.Turn.Basic

/-!
# What a turn asks for

The action that a session takes on a turn (`Turn.action`). The first rule that fits decides:

1. a completion or a verification report ends the session;
2. a claim that nothing needs to change is confirmed once, then ends the session;
3. a request for a final review is answered with one;
4. requested files are served;
5. a patch is applied;
6. anything else is answered with a corrective prompt while any is left, and then ends the session.
-/

namespace Mend

/-- Why a session ends. -/
inductive DoneReason where
  /-- Completion was signalled. -/
  | completed
  /-- It was confirmed that nothing needs to change. -/
  | noChangesNeeded
  /-- A reply had nothing to act on. -/
  | noActionableContent
  /-- The last allowed turn is over. -/
  | turnLimitExceeded
  deriving DecidableEq, Repr

namespace DoneReason

/-- The name of a reason. -/
def name : DoneReason → Text
  | completed => "completed".toList
  | noChangesNeeded => "no_changes_needed".toList
  | noActionableContent => "no_actionable_content".toList
  | turnLimitExceeded => "turn_limit_exceeded".toList

/-- The exit code of a run that ends for a reason. -/
def exitCode : DoneReason → Nat
  | completed | noChangesNeeded => 0
  | noActionableContent => 2
  | turnLimitExceeded => 3

end DoneReason

/-- A prompt that is sent without touching files. -/
inductive FollowUp where
  /-- Asks to confirm that nothing needs to change. -/
  | confirmNoChanges
  /-- Asks for a final review. -/
  | finalCheck
  /-- Points out that a reply had nothing to act on. -/
  | corrective
  deriving DecidableEq, Repr

/-- The name of a follow-up. -/
def FollowUp.name : FollowUp → Text
  | confirmNoChanges => "confirm_no_changes".toList
  | finalCheck => "final_check".toList
  | corrective => "corrective".toList

/-- What a session does next. -/
inductive Action where
  /-- End for a reason. -/
  | done (reason : DoneReason)
  /-- Serve files and listings. -/
  | requestFiles (requests : List Request)
  /-- Apply a patch. -/
  | applyPatch (patch : Text)
  /-- Send a follow-up prompt. -/
  | followUp (kind : FollowUp)
  deriving DecidableEq, Repr

/-- The action on a turn, given whether a confirmation was asked for in this session and how many
corrective prompts are left. -/
def Turn.action (t : Turn) (confirmed : Bool) (correctivesLeft : Nat) : Action :=
  match t.signal with
  | .fin | .verificationReport => .done .completed
  | .noChangesNeeded => if confirmed then .done .noChangesNeeded else .followUp .confirmNoChanges
  | .readyForFinalCheck => .followUp .finalCheck
  | .none =>
    if !t.requests.isEmpty then .requestFiles t.requests
    else if !t.patch.trim.isEmpty then .applyPatch t.patch
    else if 0 < correctivesLeft then .followUp .corrective
    else .done .noActionableContent

end Mend
