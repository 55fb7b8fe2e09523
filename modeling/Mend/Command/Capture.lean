import Mend.Failure
import Mend.Text.Utf8

/-!
# Captured output

What is kept of the output of a command. A stream is read in blocks until a read gives nothing. It may
be long, so only its first bytes are kept, up to a limit, and the others are counted
(`Capture.feed`, `Capture.drain`).
-/

namespace Mend

/-- What is kept of a stream. -/
structure Capture where
  /-- The first bytes. -/
  kept : ByteArray := .empty
  /-- The number of bytes that were not kept. -/
  dropped : Nat := 0
  deriving DecidableEq

namespace Capture

/-- The capture after one more block. -/
def feed (limit : Nat) (c : Capture) (block : ByteArray) : Capture :=
  let room := min block.size (limit - c.kept.size)
  ⟨c.kept ++ block.extract 0 room, c.dropped + (block.size - room)⟩

/-- The capture of a stream, given what one read after another gives, and the reads that are left. A
stream ends where a read gives no bytes, or where there are no more reads. -/
def drain (limit : Nat) (c : Capture) : List (Except Failure ByteArray) →
    Except Failure Capture × List (Except Failure ByteArray)
  | [] => (.ok c, [])
  | .error f :: rest => (.error (f.within "read output".toList), rest)
  | .ok block :: rest => if block.isEmpty then (.ok c, rest) else drain limit (c.feed limit block) rest

/-- The greatest size of a block. -/
def blockSize : Nat := 8192

/-- The bytes of a stream in blocks, all of them full but the last. -/
def blocks (data : ByteArray) : List ByteArray :=
  (List.range ((data.size + blockSize - 1) / blockSize)).map fun i =>
    data.extract (i * blockSize) ((i + 1) * blockSize)

/-- The text of what was kept. -/
def text (c : Capture) : Text := Text.ofBytesLossy c.kept

/-- The last lines of what was kept. -/
def tail (c : Capture) (lines : Nat) : Text :=
  let all := Text.lines c.text
  Text.joinWith [Text.lf] (all.drop (all.length - lines))

end Capture

end Mend
