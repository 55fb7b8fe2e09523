import Mend.Json.Writer
import Mend.Request.Plan
import Mend.Request.Resolve
import Mend.Tag
import Mend.Turn.Basic

/-!
# Reading a reply

`Turn.parse` reads any text; what matches nothing gives the empty turn. In order:

1. a completion marker anywhere makes the whole turn (`Tag.finMarker`, then
   `Tag.noChangesMarker`);
2. a reply that is one JSON value about paths or actions needs no delimiters (`Turn.ofJson?`);
3. otherwise the lines are divided by their delimiters (`Turn.scanLines`); a delimiter that ends the
   reply keeps the advisory texts only;
4. a turn with a plan and without requests asks for the files that the plan names;
5. each path is asked for once.
-/

namespace Mend

namespace Turn

/-! ## Sections -/

/-- The lines of a reply, each with the tag of its section, and the signal of the delimiter that
ended the scan. Lines before the first delimiter belong to no section. Text after a delimiter on
its line is the first line of the section. -/
def scanLines (current : Option Tag) : List Text → List (Tag × Text) × Signal
  | [] => ([], .none)
  | line :: rest =>
    match TagLine.find? line with
    -- these two end the reply: what stands after them is not read
    | some ⟨.verificationReport, _⟩ => ([], .verificationReport)
    | some ⟨.finalCheck, _⟩ => ([], .readyForFinalCheck)
    | some ⟨tag, after⟩ =>
      let (entries, signal) := scanLines (some tag) rest
      (if after.isEmpty then entries else (tag, after) :: entries, signal)
    | none =>
      let (entries, signal) := scanLines current rest
      match current with
      | none => (entries, signal)
      | some tag => ((tag, line) :: entries, signal)

/-- The text of a section: its lines, joined and trimmed. -/
def sectionText (entries : List (Tag × Text)) (tag : Tag) : Text :=
  (Text.joinWith [Text.lf] ((entries.filter fun e => e.1 = tag).map Prod.snd)).trim

/-- A text unless it is empty. -/
def nonEmpty? (t : Text) : Option Text := if t.isEmpty then none else some t

/-- The turn that the sections make. -/
def ofSections (entries : List (Tag × Text)) : Turn where
  thought := nonEmpty? (sectionText entries .thought)
  plan := nonEmpty? (sectionText entries .plan)
  goals := nonEmpty? (sectionText entries .goals)
  requests := Request.resolve (sectionText entries .requests)
  patch := sectionText entries .patch
  comment := sectionText entries .comment

/-! ## Replies that are one JSON value -/

/-- The quoted names of which such a reply holds at least one. -/
def standaloneNames : List Text :=
  ["\"path\"".toList, "\"filePath\"".toList, "\"action\"".toList]

/-- Whether a value is a step of a plan. -/
def isPlanStep (v : Json) : Bool :=
  (v.member? "action".toList).isSome || (v.member? "step".toList).isSome

/-- The plan that a value is: a non-empty array of steps, written with indentation. -/
def planOfJson? : Json → Option Text
  | .array (v :: vs) =>
    if (v :: vs).all isPlanStep then some (Json.array (v :: vs)).pretty else none
  | _ => none

/-- The turn of a reply that is one JSON value. -/
def ofJson? (raw : Text) : Option Turn :=
  let t := raw.trim
  if !(t.head?.any Nesting.isOpener) then none
  else if !(standaloneNames.any fun name => Text.hasInfix name t) then none
  -- the brackets have to enclose the whole reply
  else if t.balanced? ≠ some t then none
  else (Json.read? t).map fun v => { plan := planOfJson? v, requests := Request.listOfJson v }

/-! ## The reader -/

/-- A turn whose requests come from its plan if it has no others, each path once. -/
def finish (t : Turn) : Turn :=
  let requests :=
    match t.requests, t.plan with
    -- the plan speaks only where nothing is requested
    | [], some plan => Request.ofPlan plan
    | requests, _ => requests
  { t with requests := Request.distinct requests }

/-- The turn of a reply that is divided by delimiters. -/
def ofDelimited (raw : Text) : Turn :=
  match scanLines none (raw.lines.map Text.dropCr) with
  | (entries, .none) => finish (ofSections entries)
  -- a review neither asks for files nor changes them
  | (entries, signal) => { ofSections entries with requests := [], patch := [], signal }

/-- The turn of a reply. -/
def parse (raw : Text) : Turn :=
  if Text.hasInfix Tag.finMarker raw then ofSignal .fin
  else if Text.hasInfix Tag.noChangesMarker raw then ofSignal .noChangesNeeded
  else
    match ofJson? raw with
    | some t => finish t
    | none => ofDelimited raw

end Turn

end Mend
