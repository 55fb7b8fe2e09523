import Mend.Session.Message
import Mend.Failure

/-!
# Prepared replies

A generator that answers from a list of prepared replies and remembers what it was sent.
-/

namespace Mend

/-- Prepared replies: texts or failures. -/
structure Script where
  /-- The replies that are left. -/
  replies : List (Except Failure Text)
  /-- The transcripts received, latest first. -/
  seen : List (List Message) := []

namespace Script

/-- The failure of a generator without replies. -/
def exhausted : Failure := .ofText "scripted generator has no responses left".toList

/-- The next reply. -/
def send (transcript : List Message) (s : Script) : Except Failure Text × Script :=
  match s.replies with
  | [] => (.error exhausted, ⟨[], transcript :: s.seen⟩)
  | reply :: rest => (reply, ⟨rest, transcript :: s.seen⟩)

end Script

end Mend
