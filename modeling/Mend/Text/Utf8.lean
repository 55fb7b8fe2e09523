import Mend.Text.Basic

/-!
# Texts as bytes

Files and pipes hold bytes. `Text.toBytes` is the UTF-8 form of a text, `Text.ofBytes?` reads it
back and refuses bytes that are not the form of any text, and `Text.ofBytesLossy` reads anything:
each longest run of bytes that starts a character but does not finish it, and each byte that can
start none, becomes one replacement character.

The lossy reader is a machine that takes one byte at a time (`Utf8Reader.feed`), so its answer does
not depend on how the bytes were cut into blocks.
-/

namespace Mend

namespace Text

/-- The UTF-8 form of a text. -/
def toBytes (t : Text) : ByteArray := (String.ofList t).toUTF8

/-- The text whose UTF-8 form the bytes are. -/
def ofBytes? (b : ByteArray) : Option Text := b.utf8Decode?.map Array.toList

/-- Reading the UTF-8 form of a text gives the text back. -/
@[simp]
theorem ofBytes?_toBytes (t : Text) : ofBytes? t.toBytes = some t := by
  simp [ofBytes?, toBytes]

/-- The number of bytes of a text. -/
def byteLength (t : Text) : Nat := t.foldl (fun n c => n + c.utf8Size) 0

/-- The replacement character. -/
def replacement : Char := Char.ofNat 0xFFFD

end Text

/-- Where the lossy reader stands: what it has read and, inside a character, what it waits for. -/
structure Utf8Reader where
  /-- The characters read, last one first. -/
  read : Text
  /-- How many bytes the current character still needs; zero between characters. -/
  owed : Nat
  /-- The bits of the current character so far. -/
  bits : Nat
  /-- The least value the next byte may have inside a character. -/
  low : Nat
  /-- The greatest value the next byte may have inside a character. -/
  high : Nat

namespace Utf8Reader

/-- The reader before the first byte. -/
def start : Utf8Reader := ⟨[], 0, 0, 0x80, 0xBF⟩

/-- The reader after a byte that stands between characters. -/
def first (r : Utf8Reader) (b : Nat) : Utf8Reader :=
  if b < 0x80 then { r with read := Char.ofNat b :: r.read, owed := 0 }
  else if b < 0xC2 then { r with read := Text.replacement :: r.read, owed := 0 }
  else if b < 0xE0 then ⟨r.read, 1, b % 0x20, 0x80, 0xBF⟩
  else if b < 0xF0 then
    ⟨r.read, 2, b % 0x10, if b = 0xE0 then 0xA0 else 0x80, if b = 0xED then 0x9F else 0xBF⟩
  else if b < 0xF5 then
    ⟨r.read, 3, b % 0x08, if b = 0xF0 then 0x90 else 0x80, if b = 0xF4 then 0x8F else 0xBF⟩
  else { r with read := Text.replacement :: r.read, owed := 0 }

/-- The reader after one more byte. A byte that cannot continue the current character ends it as a
replacement character and is read afresh. -/
def feed (r : Utf8Reader) (byte : UInt8) : Utf8Reader :=
  let b := byte.toNat
  match r.owed with
  | 0 => r.first b
  | left + 1 =>
    if r.low ≤ b && b ≤ r.high then
      let bits := r.bits * 0x40 + b % 0x40
      if left = 0 then ⟨Char.ofNat bits :: r.read, 0, 0, 0x80, 0xBF⟩
      else ⟨r.read, left, bits, 0x80, 0xBF⟩
    else Utf8Reader.first { r with read := Text.replacement :: r.read } b

/-- The text read when the bytes end here. -/
def finish (r : Utf8Reader) : Text :=
  (if r.owed = 0 then r.read else Text.replacement :: r.read).reverse

end Utf8Reader

namespace Text

/-- The text that the bytes hold, with replacement characters for what is not UTF-8. -/
def ofBytesLossy (b : ByteArray) : Text := (b.data.foldl Utf8Reader.feed Utf8Reader.start).finish

end Text

end Mend
