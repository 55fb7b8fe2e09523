import Mend.Patch.Error

/-!
# Prompts

The messages that a session sends. Each is a fixed text with sections that are left out when they
have nothing to show; advisory texts are trimmed and count as absent when nothing remains. Every
message ends without trailing blanks.
-/

namespace Mend

namespace Prompt

/-- The entry of a reply: a path and what is shown for it. -/
structure Entry where
  path : Text
  body : Text
  deriving DecidableEq, Repr

/-- The advisory texts of the turn that a reply answers, and the goals of the session. -/
structure Notes where
  thought : Option Text := none
  plan : Option Text := none
  comment : Option Text := none
  goals : Option Text := none

/-- What is reported about an applied patch. -/
structure PatchReport where
  /-- The produced files as text. -/
  rendered : Text
  /-- The unified diff of the changes. -/
  diff : Text
  /-- The number of added lines. -/
  added : Nat
  /-- The number of removed lines. -/
  removed : Nat
  /-- The texts of the warnings. -/
  warnings : List Text
  /-- The files that could not be written, with reasons. -/
  writeFailures : List Text

/-- A text and a line feed. -/
def line (t : Text) : Text := t ++ [Text.lf]

/-- A body between an opening and a closing mark, after an empty line. -/
def marked (name body : Text) : Text :=
  Text.lf :: '<' :: name ++ '>' :: Text.lf :: body ++ '<' :: '/' :: name ++ '>' :: [Text.lf]

/-- A text between marks; nothing for an absent or blank text. -/
def note (name : Text) (t : Option Text) : Text :=
  match t.bind Text.nonBlank? with
  | some body => marked name (line body)
  | none => []

/-- Items between marks, one a line; nothing for no items. -/
def noteList (name : Text) (items : List Text) : Text :=
  if items.isEmpty then []
  else marked name (items.flatMap fun item => '-' :: ' ' :: line item)

/-- The goals between their marks. -/
def goalsNote (goals : Option Text) : Text := note "correction_goals".toList goals

/-- Entries under a title; nothing for no entries. -/
def entrySection (title : Text) (entries : List Entry) : Text :=
  if entries.isEmpty then []
  else
    Text.lf :: line title ++
      entries.flatMap fun e => "--- ".toList ++ line e.path ++ line e.body

/-- The description of the protocol that opens a session. -/
def system : Text :=
  "You are repairing source code in a repository you cannot see directly. The
orchestrator shows you files on request and applies your patches. Work in
turns and structure every reply with the tags below. Text before the first tag
is ignored.

<protocol>
%_Thought_%
Your analysis of the problem so far.

%_Plan_%
The steps you intend to take.

%_Correction_Goals_%
What the finished change must achieve. Stated once, repeated back to you.

%_Reply Required_%
A JSON array of what you need to see next, for example:
[\x7b\"type\": \"FILE_CONTENT\", \"path\": \"src/server/handler.go\"\x7d, \x7b\"type\": \"DIRECTORY_LISTING\", \"path\": \"src\"\x7d]

%_Modified_%
A patch in unified diff format:
--- a/src/server/handler.go
+++ b/src/server/handler.go
@@ -10,3 +10,3 @@
 unchanged line
-old line
+new line

%_Comment_%
Anything else worth recording.
</protocol>

<rules>
- Paths are relative to the repository root.
- Request a file before patching it. Never guess file contents.
- A reply either requests files or carries a patch, not both.
- Context and removed lines must match the file exactly.
- When the repair is complete, reply with %%_Fin_%% on its own line.
- If the code needs no change, reply with %_No_Changes_Needed_% and explain why in %_Comment_%.
- When you believe the change is done and want a last review, reply with %_Ready_For_Final_Check_%.
- After a final review, summarize your verification under %_Verification_Report_%.
</rules>".toList

/-- The reply to requests. -/
def fileReply (files listings : List Entry) (notes : Notes) : Text :=
  Text.trimEnd <|
    "Here is what you asked for.\n".toList ++
    entrySection "=== FILE CONTENTS ===".toList files ++
    entrySection "=== DIRECTORY STRUCTURES ===".toList listings ++
    note "previous_thought".toList notes.thought ++
    note "previous_plan".toList notes.plan ++
    note "previous_comment".toList notes.comment ++
    goalsNote notes.goals ++
    "\nContinue with %_Reply Required_% for more context or %_Modified_% with a patch.\n".toList

/-- The reply to a patch that was applied. -/
def patchResult (report : PatchReport) (goals : Option Text) : Text :=
  let diff := report.diff.trimEnd
  Text.trimEnd <|
    "Your patch was applied (".toList ++ Text.ofNat report.added ++ " added, ".toList ++
    Text.ofNat report.removed ++ " removed). Result of your patch:\n".toList ++
    marked "files".toList (line report.rendered) ++
    (if diff.isEmpty then [] else marked "diff".toList (line diff)) ++
    noteList "warnings".toList report.warnings ++
    noteList "write_failures".toList report.writeFailures ++
    goalsNote goals ++
    "\nSend another %_Modified_% block if more changes are needed, %_Ready_For_Final_Check_% to request a final review, or %%_Fin_%% when done.\n".toList

/-- The reply to a patch that was rejected. -/
def patchError (err : PatchError) (patch : Text) (goals : Option Text) : Text :=
  Text.trimEnd <|
    "Your patch could not be applied.\n".toList ++
    marked "error".toList
      ("kind: ".toList ++ line err.kind ++ "line: ".toList ++ line (Text.ofNat err.line) ++
        "message: ".toList ++ line err.message) ++
    marked "patch".toList (line patch.trimEnd) ++
    goalsNote goals ++
    "\nRequest the affected files again if needed and send a corrected %_Modified_% block.\n".toList

/-- The request to confirm that nothing needs to change. -/
def verifyNoChanges (comment goals : Option Text) : Text :=
  Text.trimEnd <|
    "You reported that no changes are needed. Please verify this before the session ends.\n".toList ++
    note "your_comment".toList comment ++
    goalsNote goals ++
    "\nIf the code already satisfies every goal, reply with %_No_Changes_Needed_% again. Otherwise request the files you need or send a %_Modified_% block.\n".toList

/-- The request for a final review. -/
def finalCheck (written : List Text) (goals : Option Text) : Text :=
  Text.trimEnd <|
    "Final check requested.\n".toList ++
    (if written.isEmpty then "\nNo files have been written in this session.\n".toList
     else noteList "files_written".toList written) ++
    goalsNote goals ++
    "\nReview the changes against the goals. Reply with %_Verification_Report_% followed by your findings if the work is complete, or continue with %_Reply Required_% or %_Modified_%.\n".toList

/-- The answer to a reply with nothing to act on. -/
def corrective (goals : Option Text) : Text :=
  Text.trimEnd <|
    "Your last reply contained nothing actionable: no file request, no patch and no completion marker.\n\nUse the tags from the protocol. Request files with %_Reply Required_% and a JSON array, send a patch under %_Modified_%, or reply with %%_Fin_%% if the repair is complete.\n".toList ++
    goalsNote goals

end Prompt

end Mend
