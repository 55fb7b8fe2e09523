import Mend.Shell.Token
import Mend.Shell.Tree

/-!
# Reading shell scripts

A recursive descent over the text of a script (`Shell.read`). Words end at blanks and at the
characters that separate commands; reserved words count only where a command can start. The steps on
a line are read together, and a script with a fault is read up to the line of the fault (`Script`).

The fuel of the readers is computed from the length of the script.
-/

namespace Mend

namespace Shell

/-- The line, counted from one, at which a rest of a script starts; `lines` is the number of line
feeds in the whole script. -/
def lineAt (lines : Nat) (rest : Text) : Nat := lines - rest.count '\n' + 1

/-! ## Parts of words -/

/-- The content up to a closing backquote, without the backslashes of its escapes. -/
def readBackquoted : Text → Except ScriptStop (Text × Text)
  | [] => .error ⟨.openBackquote, []⟩
  | '\\' :: c :: rest =>
    (readBackquoted rest).map fun (t, after) =>
      (if c = backquote || c = '\\' || c = '$' then c :: t else '\\' :: c :: t, after)
  | c :: rest =>
    if c = backquote then .ok ([], rest)
    else (readBackquoted rest).map fun (t, after) => (c :: t, after)

/-- The lines of a text up to one that is a mark, the text after that, with tabs in front of lines
left out if they are not wanted. -/
def takeHere (mark : Text) (dropTabs : Bool) : List Text → Text × List Text
  | [] => ([], [])
  | line :: rest =>
    let line := if dropTabs then line.dropWhile (· = '\t') else line
    if line = mark then ([], rest)
    else
      let (body, after) := takeHere mark dropTabs rest
      -- The last line of a script may lack its line feed.
      (if rest.isEmpty then line else line ++ '\n' :: body, after)

/-- The text of pieces without any that are to be replaced, and whether some were quoted. -/
def literalText (pieces : List Piece) : Text × Bool :=
  pieces.foldl (fun (t, quoted) piece =>
    match piece with
    | .plain s => (t ++ s, quoted)
    | .quoted s => (t ++ s, true)
    | _ => (t, quoted)) ([], false)

/-- The name and the rest of an assignment at the start of a word. -/
def assignment? : List Piece → Option (Text × List Piece)
  | .plain t :: rest =>
    match Text.cutFirst? '=' t with
    | some (name, value) => if isName name then some (name, .plain value :: rest) else none
    | none => none
  | _ => none

/-- The sign between a variable and the word beside it. -/
def adaptation? : Text → Option (Adaptation × Text)
  | '-' :: rest => some (.default, rest)
  | '=' :: rest => some (.assign, rest)
  | '?' :: rest => some (.complain, rest)
  | '+' :: rest => some (.instead, rest)
  | '#' :: '#' :: rest => some (.cutFront true, rest)
  | '#' :: rest => some (.cutFront false, rest)
  | '%' :: '%' :: rest => some (.cutBack true, rest)
  | '%' :: rest => some (.cutBack false, rest)
  | _ => none

/-- Whether a function can have a word as its name. -/
def functionName? : List Piece → Option Text
  | [.plain t] => if isName t && !lastingCommands.contains t then some t else none
  | _ => none

/-- The text after a reserved word that must come next. -/
def expectWord (word : String) (t : Text) : Except ScriptStop Text :=
  match dropWord? word (skipSpace t) with
  | some after => .ok after
  | none => .error (Token.unexpected true (some (Token.shown word.toList)) t)

/-- The text after a bracket that must come next. -/
def expectBracket (reserved : Bool) (t : Text) : Except ScriptStop Text :=
  match skipSpace t with
  | ')' :: after => .ok after
  | other => .error (Token.unexpected reserved (some (Token.shown [')'])) other)

/-- What a simple command is made of. -/
structure Simple where
  /-- The assignments in front. -/
  assignments : List (Text × List Piece) := []
  /-- The words. -/
  words : List (List Piece) := []
  /-- The redirections. -/
  redirections : List Redirection := []

/-! ## Words and steps -/

mutual

/-- The pieces of a word, up to the character that ends it: in braces the closing brace, which is
not taken, and else a blank or a separator of commands. -/
def readWord (lines : Nat) : Nat → Bool → Text → Except ScriptStop (List Piece × Text)
  | 0, _, t => .error ⟨.openQuote, t⟩
  | fuel + 1, braced, t =>
    let ends (c : Char) : Bool := if braced then c = '\x7d' else endsWord c
    match t with
    | [] => .ok ([], [])
    | '\\' :: '\n' :: rest => readWord lines fuel braced rest
    | '\\' :: c :: rest => do
      let (more, after) ← readWord lines fuel braced rest
      return (.quoted [c] :: more, after)
    | '\'' :: rest => do
      let (inside, rest) ←
        match Text.cutFirst? '\'' rest with
        | some parts => .ok parts
        | none => .error ⟨.openQuote, []⟩
      let (more, after) ← readWord lines fuel braced rest
      return (.quoted inside :: more, after)
    | '"' :: rest => do
      let (inside, rest) ← readQuoted lines fuel (some '"') rest
      let (more, after) ← readWord lines fuel braced rest
      -- Empty quotes are a field of their own.
      return ((if inside.isEmpty then [.quoted []] else inside) ++ more, after)
    | '$' :: rest => do
      let (piece, rest) ← readDollar lines fuel false rest
      let (more, after) ← readWord lines fuel braced rest
      return (piece :: more, after)
    | c :: rest =>
      if ends c then .ok ([], t)
      else if c = backquote then do
        let (script, rest) ← readBackquoted rest
        let (steps, _) ← readSteps lines fuel true script
        let (more, after) ← readWord lines fuel braced rest
        return (.output steps false :: more, after)
      else do
        let stops (d : Char) : Bool :=
          ends d || d = '\\' || d = '\'' || d = '"' || d = '$' || d = backquote
        let run := c :: rest.takeWhile fun d => !stops d
        let (more, after) ← readWord lines fuel braced (rest.dropWhile fun d => !stops d)
        return (.plain run :: more, after)

/-- The pieces of a quoted text up to the character that closes it, which is taken; without such a
character, up to the end. -/
def readQuoted (lines : Nat) : Nat → Option Char → Text → Except ScriptStop (List Piece × Text)
  | 0, _, t => .error ⟨.openQuote, t⟩
  | fuel + 1, close, t =>
    match t with
    | [] =>
      match close with
      | none => .ok ([], [])
      | some c => .error ⟨if c = '\x7d' then .openBrace else .openQuote, []⟩
    | '\\' :: '\n' :: rest => readQuoted lines fuel close rest
    | '\\' :: c :: rest => do
      let (more, after) ← readQuoted lines fuel close rest
      let kept := if c = '$' || c = backquote || close = some c || c = '\\' then [c] else ['\\', c]
      return (.quoted kept :: more, after)
    | '$' :: rest => do
      let (piece, rest) ← readDollar lines fuel true rest
      let (more, after) ← readQuoted lines fuel close rest
      return (piece :: more, after)
    | c :: rest =>
      if close = some c then .ok ([], rest)
      else if c = '"' && close = some '\x7d' then readQuoted lines fuel close rest
      else if c = backquote then do
        let (script, rest) ← readBackquoted rest
        let (steps, _) ← readSteps lines fuel true script
        let (more, after) ← readQuoted lines fuel close rest
        return (.output steps true :: more, after)
      else do
        let stops (d : Char) : Bool :=
          close = some d || d = '\\' || d = '$' || d = backquote || (d = '"' && close = some '\x7d')
        let run := c :: rest.takeWhile fun d => !stops d
        let (more, after) ← readQuoted lines fuel close (rest.dropWhile fun d => !stops d)
        return (.quoted run :: more, after)

/-- The pieces of a sum up to its closing brackets; `depth` is the number of open brackets. -/
def readSum (lines : Nat) : Nat → Nat → Text → Except ScriptStop (List Piece × Text)
  | 0, _, t => .error ⟨.openSum, t⟩
  | fuel + 1, depth, t =>
    match t with
    | [] => .error ⟨.openSum, []⟩
    | ')' :: ')' :: rest =>
      if depth = 0 then .ok ([], rest)
      else do
        let (more, after) ← readSum lines fuel (depth - 1) (')' :: rest)
        return (.quoted [')'] :: more, after)
    | '$' :: rest => do
      let (piece, rest) ← readDollar lines fuel true rest
      let (more, after) ← readSum lines fuel depth rest
      return (piece :: more, after)
    | c :: rest => do
      let depth := if c = '(' then depth + 1 else if c = ')' then depth - 1 else depth
      let (more, after) ← readSum lines fuel depth rest
      return (.quoted [c] :: more, after)

/-- The piece after a dollar sign. -/
def readDollar (lines : Nat) : Nat → Bool → Text → Except ScriptStop (Piece × Text)
  | 0, _, t => .error ⟨.openQuote, t⟩
  | fuel + 1, whole, t =>
    match t with
    | '(' :: '(' :: rest =>
      (readSum lines fuel 0 rest).map fun (expr, after) => (.sum expr whole, after)
    | '(' :: rest => do
      let (steps, after) ← readSteps lines fuel true rest
      return (.output steps whole, ← expectBracket true after)
    | '\x7b' :: '#' :: rest =>
      let name := if rest.head?.any isSpecial then rest.take 1 else rest.takeWhile isNameChar
      match name, rest.drop name.length with
      | [], '\x7d' :: after => .ok (.variable ['#'] whole, after)
      | name, '\x7d' :: after => .ok (.size name whole, after)
      | _, _ => readBad lines fuel rest
    | '\x7b' :: rest =>
      let name :=
        if rest.head?.any isSpecial then rest.take 1
        else if rest.head?.any Char.isDigit then rest.takeWhile Char.isDigit
        else rest.takeWhile isNameChar
      if name.isEmpty then readBad lines fuel rest
      else
        match rest.drop name.length with
        | '\x7d' :: after => .ok (.variable name whole, after)
        | ':' :: after => readAdapted lines fuel name true whole after
        | after => readAdapted lines fuel name false whole after
    | c :: rest =>
      if c.isDigit || isSpecial c then .ok (.variable [c] whole, rest)
      else if isNameChar c then
        .ok (.variable (t.takeWhile isNameChar) whole, t.dropWhile isNameChar)
      else .ok (.quoted ['$'], t)
    | [] => .ok (.quoted ['$'], [])

/-- The piece for a variable with a word beside it, up to the closing brace. -/
def readAdapted (lines : Nat) : Nat → Text → Bool → Bool → Text → Except ScriptStop (Piece × Text)
  | 0, _, _, _, t => .error ⟨.openBrace, t⟩
  | fuel + 1, name, blankToo, whole, t =>
    match adaptation? t with
    -- Whatever follows a colon is taken for a sign.
    | none => readBad lines fuel (if blankToo then t.drop 1 else t)
    | some (how, t) => do
      let isPattern : Bool :=
        match how with
        | .cutFront _ | .cutBack _ => true
        | _ => false
      if whole && !isPattern then
        let (word, after) ← readQuoted lines fuel (some '\x7d') t
        return (.adapted name how blankToo word whole, after)
      else
        match ← readWord lines fuel true t with
        | (word, '\x7d' :: after) => return (.adapted name how blankToo word whole, after)
        | (_, after) => .error ⟨.openBrace, after⟩

/-- The piece for braces that name no variable. -/
def readBad (lines : Nat) : Nat → Text → Except ScriptStop (Piece × Text)
  | 0, t => .error ⟨.openBrace, t⟩
  | fuel + 1, t => do
    match ← readWord lines fuel true t with
    | (_, '\x7d' :: after) => return (.bad, after)
    | (_, after) => .error ⟨.openBrace, after⟩

/-- The word that a redirection must have. -/
def readTarget (lines : Nat) : Nat → Text → Except ScriptStop (List Piece × Text)
  | 0, t => .error ⟨.openQuote, t⟩
  | fuel + 1, t =>
    let t := skipSpace t
    if t.head?.all endsWord then .error (Token.unexpected false none t)
    else readWord lines fuel false t

/-- A redirection at the start of a text; nothing when there is none. The text after it may have
lost the lines that it takes as input. -/
def readRedirection (lines : Nat) : Nat → Text → Except ScriptStop (Option (Redirection × Text))
  | 0, t => .error ⟨.openQuote, t⟩
  | fuel + 1, t =>
    let digits := t.takeWhile Char.isDigit
    let number (default : Nat) : Nat := (Text.toNat? digits).getD default
    if 1 < digits.length then .ok none
    else
      match t.drop digits.length with
      | '<' :: '<' :: rest => do
        let dropTabs := rest.head? = some '-'
        let (mark, after) ← readTarget lines fuel (if dropTabs then rest.drop 1 else rest)
        let (mark, isQuoted) := literalText mark
        let line := after.takeWhile (· ≠ '\n')
        let below := (after.dropWhile (· ≠ '\n')).drop 1
        let (body, left) := takeHere mark dropTabs (below.splitOn '\n')
        let (pieces, _) ←
          if isQuoted then .ok ([.quoted body], []) else readQuoted lines fuel none body
        return some (.here (number 0) pieces, line ++ '\n' :: Text.joinWith ['\n'] left)
      | '<' :: '&' :: rest => do
        let (word, after) ← readTarget lines fuel rest
        return some (.merge (number 0) word, after)
      | '<' :: rest => do
        let (word, after) ← readTarget lines fuel rest
        return some (.input (number 0) word, after)
      | '>' :: '>' :: rest => do
        let (word, after) ← readTarget lines fuel rest
        return some (.output (number 1) true word, after)
      | '>' :: '&' :: rest => do
        let (word, after) ← readTarget lines fuel rest
        return some (.merge (number 1) word, after)
      | '>' :: rest => do
        let rest := if rest.head? = some '|' then rest.drop 1 else rest
        let (word, after) ← readTarget lines fuel rest
        return some (.output (number 1) false word, after)
      | _ => return none

/-- The redirections at the start of a text. -/
def readRedirections (lines : Nat) : Nat → Text → Except ScriptStop (List Redirection × Text)
  | 0, t => .error ⟨.openQuote, t⟩
  | fuel + 1, t => do
    match ← readRedirection lines fuel (skipSpace t) with
    | none => return ([], t)
    | some (r, after) =>
      let (more, after) ← readRedirections lines fuel after
      return (r :: more, after)

/-- The rest of a simple command. -/
def readSimple (lines : Nat) : Nat → Simple → Text → Except ScriptStop (Simple × Text)
  | 0, _, t => .error ⟨.openQuote, t⟩
  | fuel + 1, s, t => do
    let t := skipSpace t
    match ← readRedirection lines fuel t with
    | some (r, after) =>
      readSimple lines fuel { s with redirections := s.redirections ++ [r] } after
    | none =>
      if t.head?.all endsWord then return (s, t)
      else
        let (word, after) ← readWord lines fuel false t
        match s.words, assignment? word with
        | [], some a => readSimple lines fuel { s with assignments := s.assignments ++ [a] } after
        | _, _ => readSimple lines fuel { s with words := s.words ++ [word] } after

/-- Words up to something else. -/
def readWords (lines : Nat) : Nat → Text → Except ScriptStop (List (List Piece) × Text)
  | 0, t => .error ⟨.openQuote, t⟩
  | fuel + 1, t => do
    let t := skipSpace t
    if t.head?.all endsWord then return ([], t)
    else
      let (word, after) ← readWord lines fuel false t
      let (more, after) ← readWords lines fuel after
      return (word :: more, after)

/-- A simple command, or the definition of a function. -/
def readRun (lines : Nat) : Nat → Text → Except ScriptStop (Step × Text)
  | 0, t => .error ⟨.openQuote, t⟩
  | fuel + 1, t => do
    let (s, after) ← readSimple lines fuel {} t
    match s.assignments, s.words, s.redirections, after with
    | [], [word], [], '(' :: rest =>
      let rest ← expectBracket false rest
      match functionName? word with
      | none => .error ⟨.badFunctionName, rest⟩
      | some name =>
        let (body, after) ← readCommand lines fuel (skipLines rest)
        return (.define name body, after)
    | _, _, _, _ => return (.run (lineAt lines t) s.assignments s.words s.redirections, after)

/-- One command. -/
def readCommand (lines : Nat) : Nat → Text → Except ScriptStop (Step × Text)
  | 0, t => .error ⟨.openQuote, t⟩
  | fuel + 1, t =>
    let t := skipSpace t
    let word := peekWord t
    let compound? : Option (Except ScriptStop (Step × Text)) :=
      match t with
      | '(' :: rest => some do
        let (body, after) ← readSteps lines fuel false rest
        return (.group true body, ← expectBracket true after)
      | _ =>
        if word = "if".toList then some (readBranch lines fuel [] (t.drop 2))
        else if word = "while".toList then some (readLoop lines fuel true (t.drop 5))
        else if word = "until".toList then some (readLoop lines fuel false (t.drop 5))
        else if word = "for".toList then some (readEach lines fuel (t.drop 3))
        else if word = "case".toList then some (readChoice lines fuel (t.drop 4))
        else if word = ['\x7b'] then some do
          let (body, after) ← readSteps lines fuel false (t.drop 1)
          return (.group false body, ← expectWord "\x7d" after)
        else none
    match compound? with
    | some compound => do
      let (step, after) ← compound
      let (redirections, after) ← readRedirections lines fuel after
      return (if redirections.isEmpty then step else .redirected step redirections, after)
    | none =>
      let isRun := !reservedWords.contains word &&
        !(t.head?.all fun c => endsWord c && c ≠ '<' && c ≠ '>')
      if isRun then readRun lines fuel t else .error (Token.unexpected true none t)

/-- The rest of a step with conditions, after the word that opens a condition. -/
def readBranch (lines : Nat) : Nat → List (List Step × List Step) → Text →
    Except ScriptStop (Step × Text)
  | 0, _, t => .error ⟨.openQuote, t⟩
  | fuel + 1, cases, t => do
    let (condition, after) ← readSteps lines fuel false t
    let (body, after) ← readSteps lines fuel false (← expectWord "then" after)
    let cases := cases ++ [(condition, body)]
    match dropWord? "elif" after, dropWord? "else" after with
    | some after, _ => readBranch lines fuel cases after
    | none, some after =>
      let (otherwise, after) ← readSteps lines fuel false after
      return (.branch cases otherwise, ← expectWord "fi" after)
    | none, none => return (.branch cases [], ← expectWord "fi" after)

/-- The rest of a loop after its first word. -/
def readLoop (lines : Nat) : Nat → Bool → Text → Except ScriptStop (Step × Text)
  | 0, _, t => .error ⟨.openQuote, t⟩
  | fuel + 1, whileTrue, t => do
    let (condition, after) ← readSteps lines fuel false t
    let (body, after) ← readSteps lines fuel false (← expectWord "do" after)
    return (.loop whileTrue condition body, ← expectWord "done" after)

/-- The rest of a loop over words after its first word. -/
def readEach (lines : Nat) : Nat → Text → Except ScriptStop (Step × Text)
  | 0, t => .error ⟨.openQuote, t⟩
  | fuel + 1, t => do
    let t := skipSpace t
    let name := peekWord t
    if !isName name then .error ⟨.badLoopName, t⟩
    else
      let after := skipLines (t.drop name.length)
      let (words, after) ←
        match dropWord? "in" after with
        | some after =>
          let (words, after) ← readWords lines fuel after
          match after with
          | ';' :: rest => pure (some words, rest)
          | '\n' :: rest => pure (some words, rest)
          | other => .error (Token.unexpected false none other)
        | none => pure (none, (Text.dropPrefix? [';'] after).getD after)
      let (body, after) ← readSteps lines fuel false (← expectWord "do" (skipLines after))
      return (.each name words body, ← expectWord "done" after)

/-- The rest of a choice after its first word. -/
def readChoice (lines : Nat) : Nat → Text → Except ScriptStop (Step × Text)
  | 0, t => .error ⟨.openQuote, t⟩
  | fuel + 1, t => do
    let t := skipSpace t
    if t.head?.all endsWord then .error (Token.unexpected true (some "word".toList) t)
    else
      let (word, after) ← readWord lines fuel false t
      let after ← expectWord "in" (skipLines after)
      let (cases, after) ← readCases lines fuel after
      return (.choose word cases, after)

/-- The cases of a choice, with the word that closes it. -/
def readCases (lines : Nat) : Nat → Text →
    Except ScriptStop (List (List (List Piece) × List Step) × Text)
  | 0, t => .error ⟨.openQuote, t⟩
  | fuel + 1, t => do
    let t := skipLines t
    match dropWord? "esac" t with
    | some after => return ([], after)
    | none =>
      let (patterns, after) ← readPatterns lines fuel ((Text.dropPrefix? ['('] t).getD t)
      let (body, after) ← readSteps lines fuel true after
      let after := skipLines after
      match dropWord? "esac" after, Text.dropPrefix? [';', ';'] after with
      | some after, _ => return ([(patterns, body)], after)
      | none, some after =>
        let (more, after) ← readCases lines fuel after
        return ((patterns, body) :: more, after)
      | none, none => .error (Token.unexpected true (some (Token.shown [';', ';'])) after)

/-- The patterns of a case, with the bracket behind them. -/
def readPatterns (lines : Nat) : Nat → Text → Except ScriptStop (List (List Piece) × Text)
  | 0, t => .error ⟨.openQuote, t⟩
  | fuel + 1, t => do
    let t := skipSpace t
    let stop (t : Text) : ScriptStop := Token.unexpected false (some (Token.shown [')'])) t
    if t.head?.all endsWord then .error (stop t)
    else
      let (pattern, after) ← readWord lines fuel false t
      match skipSpace after with
      | ')' :: after => return ([pattern], after)
      | '|' :: after =>
        let (more, after) ← readPatterns lines fuel after
        return (pattern :: more, after)
      | after => .error (stop after)

/-- Commands with pipes between them. -/
def readPipe (lines : Nat) : Nat → Text → Except ScriptStop (List Step × Text)
  | 0, t => .error ⟨.openQuote, t⟩
  | fuel + 1, t => do
    let (step, after) ← readCommand lines fuel t
    match skipSpace after with
    | '|' :: '|' :: _ => return ([step], after)
    | '|' :: rest =>
      let (more, after) ← readPipe lines fuel (skipLines rest)
      return (step :: more, after)
    | _ => return ([step], after)

/-- Commands with pipes between them, perhaps negated. -/
def readNegated (lines : Nat) : Nat → Text → Except ScriptStop (Step × Text)
  | 0, t => .error ⟨.openQuote, t⟩
  | fuel + 1, t => do
    let t := skipSpace t
    let negated := peekWord t = ['!']
    let (parts, after) ← readPipe lines fuel (if negated then t.drop 1 else t)
    let step : Step :=
      match parts with
      | [step] => step
      | _ => .pipe parts
    return (if negated then .negate step else step, after)

/-- The steps that hang on the success or failure of a first one. -/
def readChain (lines : Nat) : Nat → Step → Text → Except ScriptStop (Step × Text)
  | 0, _, t => .error ⟨.openQuote, t⟩
  | fuel + 1, first, t =>
    match skipSpace t with
    | '&' :: '&' :: rest => do
      let (second, after) ← readNegated lines fuel (skipLines rest)
      readChain lines fuel (.chain true first second) after
    | '|' :: '|' :: rest => do
      let (second, after) ← readNegated lines fuel (skipLines rest)
      readChain lines fuel (.chain false first second) after
    | other => .ok (first, other)

/-- The steps up to a word or sign that closes them. There must be one, unless there may be none. -/
def readSteps (lines : Nat) : Nat → Bool → Text → Except ScriptStop (List Step × Text)
  | 0, _, t => .error ⟨.openQuote, t⟩
  | fuel + 1, mayBeNone, t => do
    let t := skipLines t
    if t.isEmpty || (mayBeNone && atCloser t) then return ([], t)
    else
      let (first, after) ← readNegated lines fuel t
      let (step, after) ← readChain lines fuel first after
      match after with
      | ';' :: ';' :: _ => return ([step], after)
      | ';' :: rest =>
        let (more, after) ← readSteps lines fuel true rest
        return (step :: more, after)
      | '\n' :: rest =>
        let (more, after) ← readSteps lines fuel true rest
        return (step :: more, after)
      | '&' :: rest =>
        let (more, after) ← readSteps lines fuel true rest
        return (.background step :: more, after)
      | other => return ([step], other)

end

/-! ## Scripts -/

/-- The steps on the first line of a script, and the lines that they go on over. -/
def readRow (lines : Nat) : Nat → Text → Except ScriptStop (List Step × Text)
  | 0, t => .error ⟨.openQuote, t⟩
  | fuel + 1, t =>
    match skipSpace t with
    | [] => .ok ([], [])
    | '\n' :: rest => .ok ([], rest)
    | t => do
      let (first, after) ← readNegated lines fuel t
      let (step, after) ← readChain lines fuel first after
      match after with
      | [] => return ([step], [])
      | '\n' :: rest => return ([step], rest)
      | ';' :: ';' :: _ => .error (Token.unexpected true none after)
      | ';' :: rest =>
        let (more, after) ← readRow lines fuel rest
        return (step :: more, after)
      | '&' :: rest =>
        let (more, after) ← readRow lines fuel rest
        return (.background step :: more, after)
      | other => .error (Token.unexpected true none other)

/-- A script: its rows of steps up to the first fault, and that fault with its line. -/
structure Script where
  /-- The rows. -/
  rows : List (List Step)
  /-- The fault, if there is one. -/
  fault : Option (ScriptFault × Nat)

/-- The rows of a rest of a script; every row takes at least one character. -/
def readRows (lines : Nat) : Nat → Text → Script
  | 0, _ => ⟨[], none⟩
  | fuel + 1, t =>
    match readRow lines (4 * t.length + 40) t with
    | .error s => ⟨[], some (s.fault, lineAt lines s.rest)⟩
    | .ok (steps, rest) =>
      if rest.isEmpty then ⟨[steps], none⟩
      else
        let more := readRows lines fuel rest
        ⟨steps :: more.rows, more.fault⟩

/-- The script that a text is. -/
def read (script : Text) : Script := readRows (script.count '\n') (script.length + 1) script

end Shell

end Mend
