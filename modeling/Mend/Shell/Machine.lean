import Mend.Disk

/-!
# What scripts and programs run on

A machine is a disk, pipes with the bytes that wait in them, and a clock that only waiting moves
(`Machine`). A process sees it from a directory and through numbered streams (`Process`): a stream
leads to a pipe, to a file or nowhere. What is written to a file is on the disk at once.

Scripts work on bytes, while texts are made of characters. Inside of a script a text stands for its
bytes, one character below 256 for each (`Octets`).
-/

namespace Mend

/-- A text whose characters stand for bytes. -/
abbrev Octets := Text

namespace Octets

/-- The octets of bytes. -/
def ofBytes (b : ByteArray) : Octets := b.toList.map fun byte => Char.ofNat byte.toNat

/-- The bytes of octets. -/
def toBytes (t : Octets) : ByteArray := ⟨(t.map fun c => UInt8.ofNat c.toNat).toArray⟩

/-- The octets of a text. -/
def ofText (t : Text) : Octets := ofBytes t.toBytes

/-- The text of octets. -/
def toText (t : Octets) : Text := Text.ofBytesLossy (toBytes t)

end Octets

namespace Shell

/-- Where a stream leads. -/
inductive Stream where
  /-- To a pipe. -/
  | pipe (n : Nat)
  /-- To a file. -/
  | file (loc : Location)
  /-- Nowhere: there is nothing to read, and what is written is lost. -/
  | nowhere
  deriving DecidableEq

/-- A disk, pipes and a clock. -/
structure Machine where
  /-- The disk. -/
  disk : Disk
  /-- The bytes that wait in the pipes. -/
  pipes : Array ByteArray := #[]
  /-- The milliseconds that have passed. -/
  clock : Nat := 0
  /-- The time at which everything is stopped. -/
  deadline : Nat
  /-- The pipes that stand for files, whose sizes are known before they are read. -/
  contents : List Nat := []
  /-- The number of processes so far. -/
  processes : Nat := 0

namespace Machine

/-- Whether everything is stopped. -/
def isExpired (m : Machine) : Bool := m.deadline ≤ m.clock

/-- The machine after some milliseconds. -/
def pass (m : Machine) (ms : Nat) : Machine := { m with clock := m.clock + ms }

/-- A new pipe with bytes in it. -/
def newPipe (m : Machine) (data : ByteArray) : Stream × Machine :=
  (.pipe m.pipes.size, { m with pipes := m.pipes.push data })

/-- A new pipe that stands for a file with a content. -/
def newContent (m : Machine) (data : ByteArray) : Stream × Machine :=
  let (s, m) := m.newPipe data
  (s, { m with contents := (m.pipes.size - 1) :: m.contents })

/-- Whether a stream stands for a file. -/
def isContent (m : Machine) : Stream → Bool
  | .pipe n => m.contents.contains n
  | _ => false

/-- The bytes in a pipe. -/
def waiting (m : Machine) : Stream → ByteArray
  | .pipe n => m.pipes.getD n .empty
  | _ => .empty

/-- The machine with other bytes in a pipe. -/
def refill (m : Machine) (s : Stream) (data : ByteArray) : Machine :=
  match s with
  | .pipe n => { m with pipes := m.pipes.setIfInBounds n data }
  | _ => m

/-- All bytes that wait in a stream; none are left in it. -/
def takeAll (m : Machine) (s : Stream) : ByteArray × Machine := (m.waiting s, m.refill s .empty)

/-- The octets of the next line of a stream, and whether a line feed ended it. -/
def takeLine (m : Machine) (s : Stream) : Octets × Bool × Machine :=
  let data := m.waiting s
  let line := (data.data.findIdx? (· = 10)).getD data.size
  (Octets.ofBytes (data.extract 0 line), line < data.size,
    m.refill s (data.extract (line + 1) data.size))

/-- The machine after bytes were written to a stream. -/
def write (m : Machine) (s : Stream) (data : ByteArray) : Machine :=
  match s with
  | .nowhere => m
  | .pipe n => { m with pipes := m.pipes.modify n (· ++ data) }
  | .file loc =>
    match m.disk.node? loc with
    | some (.file old) => { m with disk := m.disk.put loc (.file (old ++ data)) }
    | _ => m

end Machine

/-- What a process has of the machine. -/
structure Process where
  /-- The number of the process. -/
  id : Nat
  /-- The directory that relative paths start from. -/
  dir : Location
  /-- The streams by number. -/
  streams : List (Nat × Stream)

namespace Process

/-- The stream with a number. -/
def stream (p : Process) (n : Nat) : Stream := (p.streams.lookup n).getD .nowhere

/-- Whether a number has a stream. -/
def isOpen (p : Process) (n : Nat) : Bool := (p.streams.lookup n).isSome

/-- The process without a stream under a number. -/
def closeStream (p : Process) (n : Nat) : Process :=
  { p with streams := p.streams.filter fun e => e.1 ≠ n }

/-- The process with another stream under a number. -/
def setStream (p : Process) (n : Nat) (s : Stream) : Process :=
  { p with streams := (n, s) :: p.streams.filter fun e => e.1 ≠ n }

/-- The disk as the process sees it. -/
def disk (p : Process) (m : Machine) : Disk := { m.disk with home := p.dir }

/-- The device that holds nothing and keeps nothing. -/
def nullDevice : Text := "/dev/null".toList

/-- The stream that a path of the system's own names. -/
def device? (p : Process) (path : Text) : Option Stream :=
  if path = nullDevice then some .nowhere
  else if path = "/dev/stdin".toList then some (p.stream 0)
  else if path = "/dev/stdout".toList then some (p.stream 1)
  else if path = "/dev/stderr".toList then some (p.stream 2)
  else none

/-- A stream with the content of a file. -/
def openInput (p : Process) (path : Text) (m : Machine) : Except DiskError Stream × Machine :=
  match p.device? path with
  | some s => (.ok s, m)
  | none =>
    match (p.disk m).readBytes path with
    | .ok data =>
      let (s, m) := m.newContent data
      (.ok s, m)
    | .error e => (.error e, m)

/-- A stream into a file, which is made if it is missing; what it holds is kept when `append` is
set. -/
def openOutput (p : Process) (path : Text) (append : Bool) (m : Machine) :
    Except DiskError Stream × Machine :=
  match p.device? path with
  | some s => (.ok s, m)
  | none =>
    let d := p.disk m
    let kept := if append then (d.readBytes path).toOption.getD .empty else .empty
    match d.writeBytes path kept, d.walk path with
    | .ok d, .ok loc => (.ok (.file loc), { m with disk := { d with home := m.disk.home } })
    | .error e, _ => (.error e, m)
    | _, .error e => (.error e, m)

/-- The machine after octets were written to a stream of the process. -/
def say (p : Process) (n : Nat) (t : Octets) (m : Machine) : Machine :=
  m.write (p.stream n) t.toBytes

end Process

end Shell

end Mend
