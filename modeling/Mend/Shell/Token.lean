import Mend.Text.Basic

/-!
# Tokens of shell scripts

The characters and words that a script is divided by, and what stands next in it (`Token.next`). A
word is reserved only where a command can start, so whether reserved words count is up to the
reader.

A script that cannot be read has a fault (`ScriptFault`), which a reader finds where a rest of the
script starts (`ScriptStop`).
-/

namespace Mend

namespace Shell

/-! ## Characters -/

/-- A space or a tab. -/
def isSpace (c : Char) : Bool := c == ' ' || c == '\t'

/-- A character that ends a word outside of quotes. -/
def endsWord (c : Char) : Bool := isSpace c || "\n;&|<>()".toList.contains c

/-- A character of names. -/
def isNameChar (c : Char) : Bool := c.isAlphanum || c == '_'

/-- Whether a text is a name. -/
def isName (t : Text) : Bool := !t.isEmpty && t.all isNameChar && !t.head?.any Char.isDigit

/-- A character that names a variable of the shell's own. -/
def isSpecial (c : Char) : Bool := "@*#?$!-".toList.contains c

/-- The character that opens the old form of a piece for the output of steps. -/
def backquote : Char := '\x60'

/-- The text after spaces, joined lines and a comment. -/
def skipSpace : Text → Text
  | [] => []
  | '\\' :: '\n' :: rest => skipSpace rest
  | c :: rest =>
    if isSpace c then skipSpace rest
    else if c = '#' then rest.dropWhile (· ≠ '\n')
    else c :: rest

/-- The text after at most `fuel` line feeds with spaces and comments around them. -/
def skipLinesFrom : Nat → Text → Text
  | 0, t => t
  | fuel + 1, t =>
    match skipSpace t with
    | '\n' :: rest => skipLinesFrom fuel rest
    | other => other

/-- The text after spaces, comments and line feeds. -/
def skipLines (t : Text) : Text := skipLinesFrom (t.length + 1) t

/-! ## Words -/

/-- The word at which a command would start, for the look-out for reserved words. -/
def peekWord (t : Text) : Text := t.takeWhile fun c => !endsWord c

/-- The reserved words that close a list of steps. -/
def closingWords : List Text :=
  ["then".toList, "elif".toList, "else".toList, "fi".toList, "do".toList, "done".toList,
   "esac".toList, ['\x7d']]

/-- The reserved words. -/
def reservedWords : List Text :=
  closingWords ++ ["if".toList, "for".toList, "case".toList, "in".toList, "while".toList,
    "until".toList, ['\x7b'], ['!']]

/-- Whether a list of steps ends here. -/
def atCloser (t : Text) : Bool :=
  match t with
  | [] => true
  | ')' :: _ => true
  | ';' :: ';' :: _ => true
  | _ => closingWords.contains (peekWord t)

/-- The text after a reserved word. -/
def dropWord? (word : String) (t : Text) : Option Text :=
  if peekWord t = word.toList then some (t.drop word.length) else none

/-! ## Faults -/

/-- Why a script cannot be read. -/
inductive ScriptFault where
  /-- Something stands where it may not, perhaps where one thing only may. -/
  | unexpected (found : Text) (expected : Option Text)
  /-- A quote is not closed. -/
  | openQuote
  /-- The old form of a piece for an output is not closed. -/
  | openBackquote
  /-- The brace of a variable is not closed. -/
  | openBrace
  /-- A sum is not closed. -/
  | openSum
  /-- The variable of a loop has no proper name. -/
  | badLoopName
  /-- A function has no proper name. -/
  | badFunctionName
  /-- A redirection names no stream. -/
  | badStream
  deriving DecidableEq, Repr

/-- The text of a fault. -/
def ScriptFault.message (f : ScriptFault) : Text :=
  "Syntax error: ".toList ++
    match f with
    | unexpected found none => found ++ " unexpected".toList
    | unexpected found (some expected) =>
      found ++ " unexpected (expecting ".toList ++ expected ++ [')']
    | openQuote => "Unterminated quoted string".toList
    | openBackquote => "EOF in backquote substitution".toList
    | openBrace => "Missing '\x7d'".toList
    | openSum => "Missing '))'".toList
    | badLoopName => "Bad for loop variable".toList
    | badFunctionName => "Bad function name".toList
    | badStream => "Bad fd number".toList

/-- A fault and the rest of the script where it is found. -/
structure ScriptStop where
  /-- The fault. -/
  fault : ScriptFault
  /-- The rest of the script. -/
  rest : Text
  deriving DecidableEq, Repr

namespace Token

/-- A text between double quotes. -/
def shown (t : Text) : Text := '"' :: t ++ ['"']

/-- The signs between commands, longer ones first. -/
def signs : List Text :=
  [[';', ';'], ['&', '&'], ['|', '|'], [';'], ['&'], ['|'], ['('], [')']]

/-- What stands next, after spaces, and the text after it; of a word, its own text stays. -/
def next (reserved : Bool) (t : Text) : Text × Text :=
  match skipSpace t with
  | [] => ("end of file".toList, [])
  | '\n' :: rest => ("newline".toList, rest)
  | rest =>
    match signs.find? (·.isPrefixOf rest) with
    | some sign => (shown sign, rest)
    | none =>
      let word := peekWord rest
      let redirects := (rest.dropWhile Char.isDigit).head?.any fun c => c = '<' || c = '>'
      if redirects then ("redirection".toList, rest)
      else if reserved && reservedWords.contains word then (shown word, rest)
      else ("word".toList, rest)

/-- The stop at what stands next. -/
def unexpected (reserved : Bool) (expected : Option Text) (t : Text) : ScriptStop :=
  let (found, rest) := next reserved t
  ⟨.unexpected found expected, rest⟩

end Token

end Shell

end Mend
