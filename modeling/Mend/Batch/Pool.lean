/-!
# Pools of workers

A pool works on a list of tasks with several workers. A worker takes the next index, which nobody
else then takes, works on the task with that index, puts the result into the slot of the task and
starts again; it stops at an index past the end (`Pool.step`). Each of these is one step, and a
schedule says which worker takes the next step. In rounds, every worker takes one step after the
other, and `Pool.rounds` of them are enough for all tasks.

The tasks work on a shared world `ω`.
-/

namespace Mend

/-- What a worker is doing. -/
inductive Worker (β : Type) where
  /-- It is about to take an index. -/
  | idle
  /-- It has taken an index. -/
  | busy (index : Nat)
  /-- It has the result of a task. -/
  | holding (index : Nat) (result : β)
  /-- It has found no task. -/
  | stopped

/-- Workers, the index that is taken next, and the results by task. -/
structure Pool (β : Type) where
  /-- The index that is taken next. -/
  next : Nat
  /-- The workers. -/
  workers : List (Worker β)
  /-- The results by task. -/
  slots : List (Option β)

namespace Pool

variable {α β ω : Type}

/-- The number of workers for a number of tasks when some number of them is allowed. -/
def size (jobs tasks : Nat) : Nat := max 1 (min jobs (max tasks 1))

/-- The pool before the first step. -/
def start (jobs tasks : Nat) : Pool β :=
  ⟨0, List.replicate (size jobs tasks) .idle, List.replicate tasks none⟩

/-- The pool with a worker that does something else. -/
def setWorker (p : Pool β) (i : Nat) (w : Worker β) : Pool β :=
  { p with workers := p.workers.set i w }

/-- The pool and the world after a step of a worker. -/
def step (tasks : List α) (run : α → ω → β × ω) (i : Nat) (p : Pool β) (w : ω) : Pool β × ω :=
  match p.workers[i]? with
  | some .idle =>
    let index := p.next
    let state : Worker β := if index < tasks.length then .busy index else .stopped
    ({ p with next := index + 1 }.setWorker i state, w)
  | some (.busy index) =>
    match tasks[index]? with
    | some task =>
      let (result, w) := run task w
      (p.setWorker i (.holding index result), w)
    | none => (p, w)
  | some (.holding index result) =>
    ({ p with slots := p.slots.set index (some result) }.setWorker i .idle, w)
  | some .stopped => (p, w)
  | none => (p, w)

/-- The pool and the world after the steps of a schedule. -/
def follow (tasks : List α) (run : α → ω → β × ω) :
    List Nat → Pool β → ω → Pool β × ω
  | [], p, w => (p, w)
  | i :: rest, p, w =>
    let (p, w) := p.step tasks run i w
    follow tasks run rest p w

/-- The number of rounds that are enough for all tasks. -/
def rounds (tasks : Nat) : Nat := 3 * tasks + 1

/-- The schedule in which the workers take turns. -/
def inTurns (jobs tasks : Nat) : List Nat :=
  (List.replicate (rounds tasks) (List.range (size jobs tasks))).flatten

/-- The slots after all tasks were worked on in turns. -/
def results (jobs : Nat) (tasks : List α) (run : α → ω → β × ω) (w : ω) : List (Option β) × ω :=
  let (p, w) := follow tasks run (inTurns jobs tasks.length) (start jobs tasks.length) w
  (p.slots, w)

end Pool

end Mend
