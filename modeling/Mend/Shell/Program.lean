import Mend.Shell.Format
import Mend.Shell.Regex

/-!
# Programs

The small programs that scripts use: they read files or their input, write to their output and
answer a status (`Program`). `Program.named?` finds one by its name, alone or with the directory of
programs before it.
-/

namespace Mend

namespace Shell

/-- A program: what it does for a process with arguments, and its status. -/
abbrev Program := Process → List Octets → Machine → Nat × Machine

namespace Program

/-- The options and operands among arguments: options start with a hyphen, and two hyphens end
them. -/
def options : List Octets → List Octets × List Octets
  | [] => ([], [])
  | arg :: rest =>
    if arg = "--".toList then ([], rest)
    else if arg.head? = some '-' && 1 < arg.length then
      let (opts, operands) := options rest
      (arg :: opts, operands)
    else
      let (opts, operands) := options rest
      (opts, arg :: operands)

/-- The letters of options. -/
def letters (opts : List Octets) : Text := opts.flatMap (·.drop 1)

/-- What a program says about an operand that it cannot use. -/
def complaint (name : String) (operand : Octets) (e : DiskError) : Octets :=
  name.toList ++ [':', ' '] ++ operand ++ [':', ' '] ++ e.reason ++ ['\n']

/-- The bytes that an operand names: those of a file, or the input for a hyphen. -/
def source (p : Process) (operand : Octets) (m : Machine) : Except DiskError ByteArray × Machine :=
  if operand = ['-'] then
    let (data, m) := m.takeAll (p.stream 0)
    (.ok data, m)
  else
    match p.openInput operand.toText m with
    | (.ok s, m) =>
      let (data, m) := m.takeAll s
      (.ok data, m)
    | (.error e, m) => (.error e, m)

/-- Copies its input or files to its output. -/
def cat : Program := fun p args m =>
  let operands := (options args).2
  (if operands.isEmpty then [['-']] else operands).foldl (fun (status, m) operand =>
    match source p operand m with
    | (.ok data, m) => (status, m.write (p.stream 1) data)
    | (.error e, m) => (1, p.say 2 (complaint "cat" operand e) m)) (0, m)

/-! ## Counting -/

/-- The counts of lines, words, characters and bytes. -/
structure Counts where
  /-- The line feeds. -/
  lines : Nat := 0
  /-- The runs of characters between blanks. -/
  words : Nat := 0
  /-- The bytes. -/
  bytes : Nat := 0

/-- The counts of bytes. -/
def Counts.ofBytes (data : ByteArray) : Counts :=
  let isBlank (b : UInt8) : Bool := b = 32 || (9 ≤ b && b ≤ 13)
  let (lines, words, _) := data.foldl (fun (lines, words, inWord) b =>
    (if b = 10 then lines + 1 else lines, if !isBlank b && !inWord then words + 1 else words,
      !isBlank b)) (0, 0, false)
  { lines, words, bytes := data.size }

/-- The sum of counts. -/
def Counts.add (a b : Counts) : Counts := ⟨a.lines + b.lines, a.words + b.words, a.bytes + b.bytes⟩

/-- The counts that options ask for, in a fixed order. -/
def Counts.chosen (letters : Text) (c : Counts) : List Nat :=
  let wants (l : Char) : Bool := letters.isEmpty || letters.contains l
  (if wants 'l' then [c.lines] else []) ++ (if wants 'w' then [c.words] else []) ++
    (if letters.contains 'm' then [c.bytes] else []) ++ (if wants 'c' then [c.bytes] else [])

/-- A line of counts in columns, with a name if there is one. -/
def countLine (width : Nat) (counts : List Nat) (name : Octets) : Octets :=
  let column (n : Nat) : Octets :=
    let digits := Text.ofNat n
    List.replicate (width - digits.length) ' ' ++ digits
  Text.joinWith [' '] (counts.map column) ++ (if name.isEmpty then [] else ' ' :: name) ++ ['\n']

/-- Counts lines, words and bytes. Columns are as wide as the greatest number needs, and at least
seven where the size of the input is not known before. -/
def wc : Program := fun p args m =>
  let (opts, operands) := options args
  let letters := letters opts
  let sources := if operands.isEmpty then [['-']] else operands
  let (results, m) := sources.foldl (fun (results, m) operand =>
    let (r, m) := source p operand m
    (results ++ [(operand, r)], m)) (([] : List (Octets × Except DiskError ByteArray)), m)
  let counts := results.filterMap fun (_, r) => r.toOption.map Counts.ofBytes
  let total := counts.foldl Counts.add {}
  let digits := (Text.ofNat total.bytes).length
  let width :=
    if sources.length = 1 && (total.chosen letters).length = 1 then 1
    else if sources.contains ['-'] && !m.isContent (p.stream 0) then max 7 digits
    else digits
  let (status, m) := results.foldl (fun (status, m) (operand, r) =>
    match r with
    | .ok data =>
      let name := if operands.isEmpty then [] else operand
      let line := countLine width ((Counts.ofBytes data).chosen letters) name
      (status, p.say 1 line m)
    | .error e => (1, p.say 2 (complaint "wc" operand e) m)) (0, m)
  if 1 < sources.length then
    (status, p.say 1 (countLine width (total.chosen letters) "total".toList) m)
  else (status, m)

/-! ## Searching -/

/-- What a search looks for and how it answers. -/
structure Search where
  /-- The expressions, one of which must match. -/
  regexes : List Regex
  /-- The letters of the options. -/
  letters : Text
  /-- The names of files, if they are put before lines. -/
  named : Bool

namespace Search

/-- Whether an option is given. -/
def has (s : Search) (c : Char) : Bool := s.letters.contains c

/-- The first match in the end of a line, and what follows it. -/
def find? (s : Search) (size : Nat) (before : Option Char) (t : Octets) :
    Option (Octets × Option Char × Octets) :=
  let found := s.regexes.filterMap fun r => r.find? size (s.has 'w') before t
  found.foldl (fun best (f : Octets × Option Char × Octets) =>
    match best with
    | none => some f
    | some b =>
      -- The match that starts first wins, and then the longer one.
      let start (f : Octets × Option Char × Octets) : Nat := f.1.length + f.2.2.length
      if start b < start f || (start b = start f && b.1.length < f.1.length) then some f
      else some b) none

/-- All matches in a line, without the empty ones. -/
def all (s : Search) (size : Nat) : Nat → Option Char → Octets → List Octets
  | 0, _, _ => []
  | fuel + 1, before, t =>
    match s.find? size before t with
    | none => []
    | some (matched, before, rest) =>
      if matched.isEmpty then
        match rest with
        | [] => []
        | c :: rest => all s size fuel (some c) rest
      else matched :: all s size fuel before rest

/-- Whether a line is chosen. -/
def chooses (s : Search) (line : Octets) : Bool :=
  (s.find? line.length none line).isSome != s.has 'v'

/-- The number of chosen lines of a source, and what is written about them. -/
def report (s : Search) (name : Octets) (lines : List Octets) : Nat × Octets :=
  let label := if s.named then name ++ [':'] else []
  let numbered := lines.zipIdx 1
  let chosen := numbered.filter fun (line, _) => s.chooses line
  let output : Octets :=
    if s.has 'q' then []
    else if s.has 'l' then (if chosen.isEmpty then [] else name ++ ['\n'])
    else if s.has 'c' then label ++ Text.ofNat chosen.length ++ ['\n']
    else
      chosen.flatMap fun (line, n) =>
        let label := label ++ (if s.has 'n' then Text.ofNat n ++ [':'] else [])
        if s.has 'o' then
          if s.has 'v' then []
          else (s.all line.length (line.length + 1) none line).flatMap fun t => label ++ t ++ ['\n']
        else label ++ line ++ ['\n']
  (chosen.length, output)

end Search

/-- The patterns, letters and operands of a search. With `pending`, the first argument is the
pattern of an option before it. -/
def searchArgs (pending : Bool) : List Octets → List Octets × Text × List Octets
  | [] => ([], [], [])
  | arg :: rest =>
    if pending then
      let (patterns, letters, operands) := searchArgs false rest
      (arg :: patterns, letters, operands)
    else if arg = "--".toList then ([], [], rest)
    else if arg.head? = some '-' && 1 < arg.length then
      let flags := arg.drop 1
      let plain := flags.takeWhile (· ≠ 'e')
      let named := flags.drop (plain.length + 1)
      let hasPattern := flags.contains 'e'
      let (patterns, letters, operands) := searchArgs (hasPattern && named.isEmpty) rest
      (if named.isEmpty then patterns else named :: patterns,
        (if hasPattern then plain ++ ['e'] else plain) ++ letters, operands)
    else
      let (patterns, letters, operands) := searchArgs false rest
      (patterns, letters, arg :: operands)

/-- The lines of octets; a last line needs no line feed. -/
def octetLines (t : Octets) : List Octets :=
  let pieces := t.splitOn '\n'
  if pieces.getLast? = some [] then pieces.dropLast else pieces

/-- The expression for a pattern under options. -/
def searchRegex? (letters : Text) (pattern : Octets) : Option Regex :=
  let base :=
    if letters.contains 'F' then some (Regex.ofText pattern)
    else Regex.read? (letters.contains 'E') pattern
  base.map fun r =>
    let r := if letters.contains 'i' then r.ignoringCase else r
    if letters.contains 'x' then r.wholeLine else r

/-- Writes the lines in which a pattern matches. -/
def grep : Program := fun p args m =>
  let (patterns, letters, operands) := searchArgs false args
  let (patterns, operands) :=
    if letters.contains 'e' then (patterns, operands) else (operands.take 1, operands.drop 1)
  if patterns.isEmpty then
    (2, p.say 2 ("Usage: grep [OPTION]... PATTERNS [FILE]...\n" ++
      "Try 'grep --help' for more information.\n").toList m)
  else
    match (patterns.flatMap (·.splitOn '\n')).mapM (searchRegex? letters) with
    | none => (2, p.say 2 "grep: Invalid regular expression\n".toList m)
    | some regexes =>
      let sources := if operands.isEmpty then [['-']] else operands
      let named := letters.contains 'H' || (1 < sources.length && !letters.contains 'h')
      let search : Search := ⟨regexes, letters, named⟩
      let (found, failed, m) := sources.foldl (fun (found, failed, m) operand =>
        match source p operand m with
        | (.ok data, m) =>
          let name := if operand = ['-'] then "(standard input)".toList else operand
          let (n, output) := search.report name (octetLines (Octets.ofBytes data))
          (found + n, failed, p.say 1 output m)
        | (.error e, m) =>
          let m := if letters.contains 's' then m else p.say 2 (complaint "grep" operand e) m
          (found, true, m)) (0, false, m)
      if letters.contains 'q' && 0 < found then (0, m)
      else if failed then (2, m)
      else (if found = 0 then 1 else 0, m)

/-! ## Exchanging characters -/

/-- The characters of a set: escapes, ranges and named classes. -/
def charSet : Nat → Octets → List Char
  | 0, _ => []
  | fuel + 1, t =>
    let element (t : Octets) : Option (Char × Octets) :=
      match t with
      | '\\' :: c :: rest =>
        match Format.escape .shell (c :: rest) with
        | (['\\'], _) => some (c, rest)
        | (written, rest) => some (written.head?.getD c, rest)
      | c :: rest => some (c, rest)
      | [] => none
    match t with
    | '[' :: ':' :: rest =>
      let name := rest.takeWhile Char.isAlpha
      match classNamed? name, Text.dropPrefix? [':', ']'] (rest.drop name.length) with
      | some test, some rest =>
        ((List.range 256).map Char.ofNat).filter test ++ charSet fuel rest
      | _, _ => '[' :: charSet fuel (':' :: rest)
    | _ =>
      match element t with
      | none => []
      | some (a, '-' :: rest) =>
        match element rest with
        | some (b, rest) =>
          (List.range (b.toNat + 1 - a.toNat)).map (fun n => Char.ofNat (a.toNat + n)) ++
            charSet fuel rest
        | none => [a, '-']
      | some (a, rest) => a :: charSet fuel rest

/-- A text with runs of characters of a class brought down to one. -/
def squeeze (test : Char → Bool) : Octets → Octets
  | [] => []
  | c :: rest =>
    match squeeze test rest with
    | d :: more => if c = d && test c then d :: more else c :: d :: more
    | [] => [c]

/-- Exchanges or deletes characters. -/
def tr : Program := fun p args m =>
  let (opts, operands) := options args
  let letters := letters opts
  let set (t : Octets) : List Char := charSet (t.length + 1) t
  let first := set (operands.head?.getD [])
  let turned := letters.contains 'c' || letters.contains 'C'
  let others := ((List.range 256).map Char.ofNat).filter (!first.contains ·)
  let chosen := if turned then others else first
  let (data, m) := m.takeAll (p.stream 0)
  let input := Octets.ofBytes data
  match operands with
  | [] => (1, p.say 2 "tr: missing operand\nTry 'tr --help' for more information.\n".toList m)
  | [only] =>
    if letters.contains 'd' then (0, p.say 1 (input.filter (!chosen.contains ·)) m)
    else if letters.contains 's' then (0, p.say 1 (squeeze (chosen.contains ·) input) m)
    else
      (1, p.say 2 ("tr: missing operand after '".toList ++ only ++
        ("'\nTwo strings must be given when translating.\n" ++
        "Try 'tr --help' for more information.\n").toList) m)
  | _ :: second :: _ =>
    let second := set second
    let exchange (c : Char) : Char :=
      match chosen.idxOf? c with
      | some i => (second[i]?.or second.getLast?).getD c
      | none => c
    let output :=
      if letters.contains 'd' then input.filter (!chosen.contains ·) else input.map exchange
    (0, p.say 1 (if letters.contains 's' then squeeze (second.contains ·) output else output) m)

/-! ## Others -/

/-- Writes its arguments in a format. -/
def printf (dialect : Format.Dialect) (name : Octets) : Program := fun p args m =>
  match if args.head? = some "--".toList then args.drop 1 else args with
  | [] =>
    if dialect = .shell then
      (2, p.say 2 (name ++ "printf: usage: printf format [arg ...]\n".toList) m)
    else
      (1, p.say 2 ("printf: missing operand\n" ++
        "Try 'printf --help' for more information.\n").toList m)
  | format :: args =>
    let w := Format.write dialect format args
    let complaints := w.bad.flatMap fun t =>
      if dialect = .shell then
        name ++ "printf: ".toList ++ t ++ ": expected numeric value\n".toList
      else "printf: '".toList ++ t ++ "': expected a numeric value\n".toList
    (if w.bad.isEmpty then 0 else 1, p.say 2 complaints (p.say 1 w.output m))

/-- Writes its arguments with spaces between them. -/
def echo : Program := fun p args m =>
  let isOption (t : Octets) : Bool :=
    t.head? = some '-' && 1 < t.length && (t.drop 1).all fun c => "neE".toList.contains c
  let letters := letters (args.takeWhile isOption)
  let escapes := (letters.filter (· ≠ 'n')).getLast? = some 'e'
  (0, p.say 1 (Format.echo .program escapes (!letters.contains 'n') (args.dropWhile isOption)) m)

/-- Writes the path of the directory. -/
def pwd : Program := fun p _ m =>
  (0, p.say 1 (Octets.ofText (Disk.pathOf p.dir) ++ ['\n']) m)

/-- The milliseconds that an operand of `sleep` names. -/
def milliseconds? (t : Octets) : Option Nat := do
  let whole := t.takeWhile Char.isDigit
  let rest := t.drop whole.length
  let (part, unit) :=
    match rest with
    | '.' :: rest => (rest.takeWhile Char.isDigit, rest.dropWhile Char.isDigit)
    | _ => ([], rest)
  if whole.isEmpty && part.isEmpty then none
  let scale ←
    match unit with
    | [] => some 1
    | ['s'] => some 1
    | ['m'] => some 60
    | ['h'] => some 3600
    | ['d'] => some 86400
    | _ => none
  let thousandths := (part ++ ['0', '0', '0']).take 3
  return scale * ((Text.toNat? whole).getD 0 * 1000 + (Text.toNat? thousandths).getD 0)

/-- Waits. -/
def sleep : Program := fun p args m =>
  let help := "Try 'sleep --help' for more information.\n"
  if args.isEmpty then (1, p.say 2 ("sleep: missing operand\n" ++ help).toList m)
  else
    match args.mapM milliseconds? with
    | some ms => (0, m.pass (ms.foldl (· + ·) 0))
    | none =>
      let bad := (args.find? fun t => (milliseconds? t).isNone).getD []
      (1, p.say 2 ("sleep: invalid time interval '".toList ++ bad ++ ("'\n" ++ help).toList) m)

/-- The programs by name. -/
def table : List (Text × Program) :=
  [("cat".toList, cat), ("wc".toList, wc), ("grep".toList, grep), ("tr".toList, tr),
   ("printf".toList, printf .program []), ("echo".toList, echo), ("pwd".toList, pwd),
   ("sleep".toList, sleep), ("true".toList, fun _ _ m => (0, m)),
   ("false".toList, fun _ _ m => (1, m))]

/-- The name of a program, without the directory of programs before it. -/
def baseName (t : Text) : Text :=
  ((Text.dropPrefix? "/bin/".toList t).or (Text.dropPrefix? "/usr/bin/".toList t)).getD t

/-- The name of the program that runs scripts. -/
def scriptRunner : Text := "sh".toList

/-- The program with a name. -/
def named? (t : Text) : Option Program := table.lookup (baseName t)

end Program

end Shell

end Mend
