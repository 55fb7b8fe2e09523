import Mend.Command.Basic

/-!
# Bounded capture of a stream

What is kept of a stream that is read in blocks is what would be kept of the stream as a whole: its
first bytes up to the limit, and the number of the others (`Capture.ofStream`). The limit may fall
anywhere, also inside of a block, since a capture that is fed one more block is the capture of the
stream with that block behind it (`Capture.feed_ofStream`). No read is left out, and none is made
behind the end of the stream (`Capture.drain_stream`).

A command keeps its output so, in blocks of the greatest size (`Command.capture_eq`).
-/

namespace Mend

namespace Capture

/-- The capture of a stream as a whole. -/
def ofStream (limit : Nat) (data : ByteArray) : Capture :=
  ⟨data.extract 0 (min limit data.size), data.size - min limit data.size⟩

/-- The stream that comes in blocks. -/
def stream (blocks : List ByteArray) : ByteArray := blocks.foldr (· ++ ·) .empty

/-! ## One block -/

/-- There are no bytes behind the end. -/
theorem extract_min (data : ByteArray) (n : Nat) :
    data.extract 0 (min n data.size) = data.extract 0 n := by
  apply ByteArray.ext
  rw [ByteArray.data_extract, ByteArray.data_extract, Array.extract_eq_extract_right,
    ByteArray.size_data]
  omega

/-- One more block is kept as far as the stream before it leaves room. -/
theorem feed_ofStream (limit : Nat) (data block : ByteArray) :
    feed limit (ofStream limit data) block = ofStream limit (data ++ block) := by
  have hsize : (ofStream limit data).kept.size = min limit data.size := by
    simp [ofStream, ByteArray.size_extract]
  have hroom : min block.size (limit - min limit data.size)
      = min (limit - data.size) block.size := by omega
  have hkept : (data ++ block).extract 0 (min limit (data ++ block).size)
      = data.extract 0 (min limit data.size)
        ++ block.extract 0 (min (limit - data.size) block.size) := by
    rw [extract_min, extract_min, extract_min, ByteArray.extract_append, Nat.zero_sub]
  have hdropped : data.size - min limit data.size
      + (block.size - min (limit - data.size) block.size)
      = data.size + block.size - min limit (data.size + block.size) := by omega
  rw [feed, hsize, hroom, ofStream, ofStream, hkept, ByteArray.size_append, hdropped]

/-! ## All blocks -/

theorem stream_cons (block : ByteArray) (blocks : List ByteArray) :
    stream (block :: blocks) = block ++ stream blocks := rfl

section Reads

variable {blocks : List ByteArray}

/-- Reads that give something are taken one after the other. -/
theorem drain_append (h : ∀ block ∈ blocks, 1 ≤ block.size) (limit : Nat) (data : ByteArray)
    (rest : List (Except Failure ByteArray)) :
    drain limit (ofStream limit data) (blocks.map .ok ++ rest)
      = drain limit (ofStream limit (data ++ stream blocks)) rest := by
  -- the stream so far is the invariant, and a block moves from the reads to it
  induction blocks generalizing data with
  | nil =>
    rw [stream, List.foldr_nil, ByteArray.append_empty]
    rfl
  | cons block blocks ih =>
    rw [List.forall_mem_cons] at h
    have hsome : ¬ block.isEmpty = true := by
      simp only [ByteArray.isEmpty, beq_iff_eq]
      omega
    rw [List.map_cons, List.cons_append, drain, if_neg hsome, feed_ofStream, ih h.2, stream_cons,
      ByteArray.append_assoc]

theorem drain_map_ok_append (h : ∀ block ∈ blocks, 1 ≤ block.size) (limit : Nat)
    (rest : List (Except Failure ByteArray)) :
    drain limit {} (blocks.map .ok ++ rest) = drain limit (ofStream limit (stream blocks)) rest := by
  have hstart : ({} : Capture) = ofStream limit .empty := by simp [ofStream]
  rw [hstart, drain_append h, ByteArray.empty_append]

theorem drain_map_ok (h : ∀ block ∈ blocks, 1 ≤ block.size) (limit : Nat) :
    drain limit {} (blocks.map .ok) = (.ok (ofStream limit (stream blocks)), []) := by
  have hall := drain_map_ok_append h limit []
  rwa [List.append_nil] at hall

/-- However a stream is cut into blocks, its first bytes up to the limit are kept and the others are
counted, and all of it is read, with the read at its end and no read behind that. -/
theorem drain_stream (limit : Nat) (data : ByteArray) (blocks : List ByteArray)
    (hdata : stream blocks = data) (hsize : ∀ block ∈ blocks, 1 ≤ block.size ∧ block.size ≤ blockSize) :
    drain limit {} (blocks.map .ok)
        = (.ok ⟨data.extract 0 (min limit data.size), data.size - min limit data.size⟩, []) ∧
      ∀ rest, drain limit {} (blocks.map .ok ++ .ok .empty :: rest)
        = (.ok ⟨data.extract 0 (min limit data.size), data.size - min limit data.size⟩, rest) := by
  subst hdata
  have hsome : ∀ block ∈ blocks, 1 ≤ block.size := fun block hblock => (hsize block hblock).1
  exact ⟨drain_map_ok hsome limit, fun rest => drain_map_ok_append hsome limit (.ok .empty :: rest)⟩

/-- A limit inside of the second block, with bytes behind it in two blocks. -/
theorem drain_stream_sample :
    drain 4 {} ([⟨#[1, 2, 3]⟩, ⟨#[4, 5]⟩, ⟨#[6]⟩].map .ok) = (.ok ⟨⟨#[1, 2, 3, 4]⟩, 2⟩, []) := by
  have hsize : ∀ block ∈ ([⟨#[1, 2, 3]⟩, ⟨#[4, 5]⟩, ⟨#[6]⟩] : List ByteArray),
      1 ≤ block.size ∧ block.size ≤ blockSize := by decide
  have hdata : stream [⟨#[1, 2, 3]⟩, ⟨#[4, 5]⟩, ⟨#[6]⟩] = ⟨#[1, 2, 3, 4, 5, 6]⟩ := by decide
  have hdrain := (drain_stream 4 ⟨#[1, 2, 3, 4, 5, 6]⟩ _ hdata hsize).1
  rw [hdrain]
  rfl

end Reads

/-! ## The blocks of a command -/

theorem stream_append (blocks blocks' : List ByteArray) :
    stream (blocks ++ blocks') = stream blocks ++ stream blocks' := by
  induction blocks with
  | nil => exact ByteArray.empty_append.symm
  | cons block blocks ih =>
    rw [List.cons_append, stream_cons, stream_cons, ih, ByteArray.append_assoc]

/-- The first blocks of a stream are its first bytes. -/
theorem stream_map_extract (data : ByteArray) (n : Nat) :
    stream ((List.range n).map fun i => data.extract (i * blockSize) ((i + 1) * blockSize))
      = data.extract 0 (n * blockSize) := by
  induction n with
  | zero =>
    rw [Nat.zero_mul, ByteArray.extract_same]
    rfl
  | succ n ih =>
    have hlast : stream [data.extract (n * blockSize) ((n + 1) * blockSize)]
        = data.extract (n * blockSize) ((n + 1) * blockSize) := ByteArray.append_empty
    have hle : n * blockSize ≤ (n + 1) * blockSize := Nat.mul_le_mul_right _ (Nat.le_succ n)
    rw [List.range_succ, List.map_append, stream_append, ih, List.map_singleton, hlast,
      ByteArray.extract_append_extract, Nat.zero_min, Nat.max_eq_right hle]

theorem stream_blocks (data : ByteArray) : stream (blocks data) = data := by
  have hle : data.size ≤ (data.size + blockSize - 1) / blockSize * blockSize := by
    rw [blockSize]
    omega
  rw [blocks, stream_map_extract, ← extract_min, Nat.min_eq_right hle, ByteArray.extract_zero_size]

/-- No block is empty, and none is larger than a read can give. -/
theorem size_of_mem_blocks {data block : ByteArray} (h : block ∈ blocks data) :
    1 ≤ block.size ∧ block.size ≤ blockSize := by
  obtain ⟨i, hi, rfl⟩ := List.mem_map.1 h
  rw [List.mem_range] at hi
  rw [ByteArray.size_extract]
  rw [blockSize] at hi ⊢
  omega

end Capture

namespace Command

/-- A command keeps the first bytes of what a program left on a stream, up to its limit. -/
theorem capture_eq (c : Command) (m : Shell.Machine) (s : Shell.Stream) :
    c.capture m s = .ok (Capture.ofStream c.limit (m.waiting s)) := by
  have hsome : ∀ block ∈ Capture.blocks (m.waiting s), 1 ≤ block.size :=
    fun block hblock => (Capture.size_of_mem_blocks hblock).1
  rw [capture, Capture.drain_map_ok hsome, Capture.stream_blocks]

end Command

end Mend
