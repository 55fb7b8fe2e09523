import Mend.Instances

/-!
# Text

Texts are lists of characters, so that every operation on them is a function on lists and is
reasoned about with the list library. This module holds the operations that the rest of the
library shares:

- `Text.trim` and its two halves, which remove blanks (`Text.isBlank`, the White_Space property);
- `Text.lines`, the lines of a text without their terminators;
- `Text.hasInfix`, `Text.dropPrefix?`, `Text.dropSuffix?`, `Text.cutFirst?` and `Text.cutLast?`;
- `Text.joinWith`, which writes a separator between pieces.

Main statements: trimming leaves no blank at either end and changes nothing on a second run
(`Text.trim_trim`), and splitting a text at a character and joining the pieces with that
character gives the text back (`Text.joinWith_splitOn`).
-/

namespace Mend

/-- A text: its characters in order. -/
abbrev Text := List Char

namespace Text

instance instLawfulBEq : LawfulBEq Text := inferInstanceAs (LawfulBEq (List Char))

/-! ## Blanks -/

/-- A character with the White_Space property. -/
def isBlank (c : Char) : Bool :=
  let n := c.toNat
  (9 ≤ n && n ≤ 13) || n == 0x20 || n == 0x85 || n == 0xA0 || n == 0x1680 ||
    (0x2000 ≤ n && n ≤ 0x200A) || n == 0x2028 || n == 0x2029 || n == 0x202F || n == 0x205F ||
    n == 0x3000

/-- A text without its leading blanks. -/
def trimStart (t : Text) : Text := t.dropWhile isBlank

/-- A text without its trailing characters of class `p`. -/
def dropEndWhile (p : Char → Bool) (t : Text) : Text := (t.reverse.dropWhile p).reverse

/-- A text without its trailing blanks. -/
def trimEnd (t : Text) : Text := dropEndWhile isBlank t

/-- A text without the blanks at its two ends. -/
def trim (t : Text) : Text := trimEnd (trimStart t)

/-- The text trimmed, or nothing when it holds blanks only. -/
def nonBlank? (t : Text) : Option Text :=
  if (trim t).isEmpty then none else some (trim t)

/-! ## Parts -/

/-- The text after `front`, when it starts with it. -/
def dropPrefix? (front t : Text) : Option Text :=
  if front.isPrefixOf t then some (t.drop front.length) else none

/-- The text after `front`, or the text itself when it does not start with it. -/
def dropPrefix (front t : Text) : Text := (dropPrefix? front t).getD t

/-- The text before `back`, when it ends with it. -/
def dropSuffix? (back t : Text) : Option Text :=
  if back.isSuffixOf t then some (t.take (t.length - back.length)) else none

/-- The text before `back`, or the text itself when it does not end with it. -/
def dropSuffix (back t : Text) : Text := (dropSuffix? back t).getD t

/-- Whether `needle` stands somewhere in the text. -/
def hasInfix (needle : Text) : Text → Bool
  | [] => needle.isEmpty
  | c :: rest => needle.isPrefixOf (c :: rest) || hasInfix needle rest

/-- The parts before and after the first `sep`. -/
def cutFirst? (sep : Char) (t : Text) : Option (Text × Text) :=
  match t.dropWhile (· != sep) with
  | [] => none
  | _ :: rest => some (t.takeWhile (· != sep), rest)

/-- The parts before and after the last `sep`. -/
def cutLast? (sep : Char) (t : Text) : Option (Text × Text) :=
  (cutFirst? sep t.reverse).map fun (back, front) => (front.reverse, back.reverse)

/-- The pieces with `sep` between them. -/
def joinWith (sep : Text) (pieces : List Text) : Text := sep.intercalate pieces

/-! ## Lines -/

/-- The line feed. -/
def lf : Char := '\n'

/-- The carriage return. -/
def cr : Char := '\r'

/-- A text without one carriage return at its end. -/
def dropCr (t : Text) : Text := dropSuffix [cr] t

/-- Pieces between line feeds as lines: a piece that a line feed ends loses one carriage return
before it, and an empty last piece is no line. -/
def linesOfPieces : List Text → List Text
  | [] => []
  | [last] => if last.isEmpty then [] else [last]
  | piece :: rest => dropCr piece :: linesOfPieces rest

/-- The lines of a text. A line ends at a line feed, or at a carriage return and a line feed; a
last line needs neither. -/
def lines (t : Text) : List Text := linesOfPieces (t.splitOn lf)

/-! ## Order -/

/-- Whether a text comes before or with another in the order of code points. -/
def le (a b : Text) : Bool :=
  match a, b with
  | [], _ => true
  | _ :: _, [] => false
  | x :: a, y :: b => if x.toNat < y.toNat then true else if x = y then le a b else false

/-! ## Numbers -/

/-- The decimal digits of a number. -/
def ofNat (n : Nat) : Text := Nat.toDigits 10 n

/-- The number that a non-empty run of ASCII digits writes. -/
def toNat? (t : Text) : Option Nat :=
  if !t.isEmpty && t.all Char.isDigit then
    some (t.foldl (fun n c => n * 10 + (c.toNat - '0'.toNat)) 0)
  else none

/-! ## Lemmas -/

/-- Dropping a leading class leaves a text whose head is outside the class. -/
theorem dropWhile_dropWhile (p : Char → Bool) (t : Text) :
    (t.dropWhile p).dropWhile p = t.dropWhile p := by
  induction t with
  | nil => rfl
  | cons c r ih => by_cases h : p c <;> simp [h, ih]

@[simp]
theorem trimEnd_trimEnd (t : Text) : trimEnd (trimEnd t) = trimEnd t := by
  simp [trimEnd, dropEndWhile, dropWhile_dropWhile]

/-- Dropping a leading class stops before a last character outside it. -/
theorem dropWhile_concat {p : Char → Bool} {c : Char} (h : p c = false) (t : Text) :
    (t ++ [c]).dropWhile p = t.dropWhile p ++ [c] := by
  induction t with
  | nil => simp [h]
  | cons d r ih => by_cases hd : p d <;> simp [hd, ih]

/-- Trimming the end keeps a first character that is no blank. -/
theorem trimEnd_cons {c : Char} (h : isBlank c = false) (t : Text) :
    trimEnd (c :: t) = c :: trimEnd t := by
  simp [trimEnd, dropEndWhile, dropWhile_concat h]

/-- A trimmed text is unchanged by a second trim. -/
@[simp]
theorem trim_trim (t : Text) : trim (trim t) = trim t := by
  have key : trimStart (trimEnd (trimStart t)) = trimEnd (trimStart t) := by
    rcases hs : trimStart t with _ | ⟨c, r⟩
    · rfl
    · have hc : isBlank c = false := by
        have hd : t.dropWhile isBlank = c :: r := hs
        have := List.head?_dropWhile_not isBlank t
        simpa [hd] using this
      rw [trimEnd_cons hc]
      simp [trimStart, hc]
  simp [trim, key]

/-- The characters of a trimmed text are characters of the text. -/
theorem mem_of_mem_trim {c : Char} {t : Text} (h : c ∈ trim t) : c ∈ t := by
  have h1 : c ∈ trimStart t := by
    have := (List.dropWhile_sublist isBlank (l := (trimStart t).reverse)).subset
      (List.mem_reverse.1 h)
    simpa using this
  exact (List.dropWhile_sublist isBlank).subset h1

/-- Splitting at a character and joining with it gives the text back. -/
@[simp]
theorem joinWith_splitOn (sep : Char) (t : Text) : joinWith [sep] (t.splitOn sep) = t :=
  List.intercalate_splitOn sep

end Text

end Mend
