import Mend.Text.Basic

/-!
# Shell scripts

A script is a list of steps. The words of a step are made of pieces, which are plain or quoted texts
and what is put in their place when the step runs: variables, the output of steps and sums.
-/

namespace Mend

namespace Shell

/-- The commands whose assignments last, and whose names no function can have. -/
def lastingCommands : List Text :=
  [":".toList, ".".toList, "break".toList, "continue".toList, "eval".toList, "exec".toList,
   "exit".toList, "export".toList, "local".toList, "readonly".toList, "return".toList,
   "set".toList, "shift".toList, "times".toList, "trap".toList, "unset".toList]

/-- What the word beside a variable does to its value. -/
inductive Adaptation where
  /-- Takes the place of a value that is missing. -/
  | default
  /-- Takes the place of a value that is missing, and is kept as the value. -/
  | assign
  /-- Ends the script with a complaint about a value that is missing. -/
  | complain
  /-- Takes the place of a value that is there. -/
  | instead
  /-- A pattern for what is cut off at the front, the shortest such text or the longest. -/
  | cutFront (longest : Bool)
  /-- A pattern for what is cut off at the end, the shortest such text or the longest. -/
  | cutBack (longest : Bool)
  deriving DecidableEq, Repr

mutual

/-- A piece of a word. `whole` is whether it stands in double quotes, where what it is replaced by
stays one field. -/
inductive Piece where
  /-- A text outside of quotes. -/
  | plain (t : Text)
  /-- A text in quotes. -/
  | quoted (t : Text)
  /-- The value of a variable. -/
  | variable (name : Text) (whole : Bool)
  /-- The value of a variable and what a word does to it. With `blankToo`, an empty value counts as
  missing. -/
  | adapted (name : Text) (how : Adaptation) (blankToo : Bool) (word : List Piece) (whole : Bool)
  /-- The length of the value of a variable. -/
  | size (name : Text) (whole : Bool)
  /-- The output of steps. -/
  | output (script : List Step) (whole : Bool)
  /-- The value of a sum. -/
  | sum (expr : List Piece) (whole : Bool)
  /-- Braces that say nothing; they end the script when it gets to them. -/
  | bad

/-- A redirection of input or output. -/
inductive Redirection where
  /-- Stream number `n` from a file. -/
  | input (n : Nat) (word : List Piece)
  /-- Stream number `n` from the script. -/
  | here (n : Nat) (body : List Piece)
  /-- Stream number `n` into a file, behind what it holds or in its place. -/
  | output (n : Nat) (append : Bool) (word : List Piece)
  /-- Stream number `n` to where the stream leads whose number a word says; a hyphen closes it. -/
  | merge (n : Nat) (word : List Piece)

/-- A step of a script. -/
inductive Step where
  /-- Assignments and a command, from a line of the script. -/
  | run (line : Nat) (assignments : List (Text × List Piece)) (words : List (List Piece))
      (redirections : List Redirection)
  /-- Steps, each with the output of the one before as input. -/
  | pipe (parts : List Step)
  /-- A step whose status is turned round. -/
  | negate (step : Step)
  /-- A second step, if the first succeeded, or if it did not. -/
  | chain (onSuccess : Bool) (first second : Step)
  /-- Steps under conditions, and steps if none holds. -/
  | branch (cases : List (List Step × List Step)) (otherwise : List Step)
  /-- Steps as long as a condition holds, or fails. -/
  | loop (whileTrue : Bool) (condition body : List Step)
  /-- Steps for each of several words; without words, for each argument. -/
  | each (name : Text) (words : Option (List (List Piece))) (body : List Step)
  /-- The steps of the first case with a pattern for a word. -/
  | choose (word : List Piece) (cases : List (List (List Piece) × List Step))
  /-- Steps together, on their own if they are set apart. -/
  | group (apart : Bool) (body : List Step)
  /-- A step with redirections around it. -/
  | redirected (step : Step) (redirections : List Redirection)
  /-- A step that is not waited for. -/
  | background (step : Step)
  /-- The definition of a function. -/
  | define (name : Text) (body : Step)

end

end Shell

end Mend
