import Mend.Batch.Run

/-!
# Schedules

The workers of a pool may take their steps in any order. Whatever schedule they follow, the indices
that they hold and the indices of the stored results are together the indices that were taken
(`Pool.Accounts`), so no two workers hold one index, and when all workers have stopped every task
was worked on once and every slot was written once.

A task meets the world that the tasks before it have left (`Pool.worldAfter`). When its result is
the same after any other tasks (`Pool.Independent`), the slots do not depend on the schedule, and
they are those of one worker that takes the tasks in order (`Pool.slots_eq_results`).
-/

namespace Mend

variable {α β ω : Type}

/-! ## What workers hold -/

namespace Worker

/-- The index that a worker has taken and whose result it has not stored. -/
def held? : Worker β → Option Nat
  | busy index => some index
  | holding index _ => some index
  | _ => none

/-- The index of the task that a worker works on in its next step. -/
def running? : Worker β → Option Nat
  | busy index => some index
  | _ => none

/-- The index of the result that a worker stores in its next step. -/
def finished? : Worker β → Option Nat
  | holding index _ => some index
  | _ => none

end Worker

/-- One worker does something else. -/
theorem filterMap_set {γ : Type} (f : γ → Option Nat) {ws : List γ} {i : Nat} {old : γ}
    (h : ws[i]? = some old) (new : γ) :
    ((f old).toList ++ (ws.set i new).filterMap f).Perm ((f new).toList ++ ws.filterMap f) := by
  induction ws generalizing i with
  | nil => simp at h
  | cons w ws ih =>
    rw [List.perm_iff_count]
    intro k
    cases i with
    | zero =>
      obtain rfl : w = old := by simpa using h
      rw [List.set_cons_zero]
      cases hold : f w <;> cases hnew : f new <;> simp [hold, hnew, List.count_cons] <;> omega
    | succ i =>
      have hcount := (ih (by simpa using h)).count_eq k
      rw [List.set_cons_succ]
      cases hw : f w <;> simp [hw, List.count_cons] at hcount ⊢ <;> omega

namespace Pool

/-- The indices that workers hold. -/
def inFlight (p : Pool β) : List Nat := p.workers.filterMap Worker.held?

/-- The indices of the results that workers hold. -/
def finished (p : Pool β) : List Nat := p.workers.filterMap Worker.finished?

/-- A worker holds an index. -/
def Holds (p : Pool β) (i k : Nat) : Prop := p.workers[i]?.bind Worker.held? = some k

/-- All workers have stopped. -/
def AllStopped (p : Pool β) : Prop := ∀ w ∈ p.workers, w = .stopped

/-- What is observed of the workers that take the steps of a schedule, before each step. -/
def observed (what : Worker β → Option Nat) (tasks : List α) (run : α → ω → β × ω) :
    List Nat → Pool β → ω → List Nat
  | [], _, _ => []
  | i :: rest, p, w =>
    (p.workers[i]?.bind what).toList ++
      observed what tasks run rest (p.step tasks run i w).1 (p.step tasks run i w).2

/-! ## Steps -/

section Step

variable {tasks : List α} {run : α → ω → β × ω} {p : Pool β} {i k : Nat} {r : β} (w : ω)

/-- A worker that takes an index stops when there is no such task. -/
theorem step_idle (h : p.workers[i]? = some .idle) : p.step tasks run i w =
    ({ p with next := p.next + 1 }.setWorker i
      (if p.next < tasks.length then .busy p.next else .stopped), w) := by
  rw [step, h]

theorem step_busy (h : p.workers[i]? = some (.busy k)) {t : α} (ht : tasks[k]? = some t) :
    p.step tasks run i w = (p.setWorker i (.holding k (run t w).1), (run t w).2) := by
  rw [step, h]
  dsimp only
  rw [ht]

theorem step_holding (h : p.workers[i]? = some (.holding k r)) : p.step tasks run i w =
    ({ p with slots := p.slots.set k (some r) }.setWorker i .idle, w) := by
  rw [step, h]

theorem step_stopped (h : p.workers[i]? = some .stopped) : p.step tasks run i w = (p, w) := by
  rw [step, h]

/-- A schedule may name workers that there are not. -/
theorem step_none (h : p.workers[i]? = none) : p.step tasks run i w = (p, w) := by
  rw [step, h]

end Step

/-! ## Accounts -/

/-- What became of the indices taken so far: workers hold them, or their results are stored. -/
structure Accounts (tasks : Nat) (p : Pool β) (ran stored : List Nat) : Prop where
  taken : (p.inFlight ++ stored).Perm (List.range (min p.next tasks))
  ran : (p.finished ++ stored).Perm ran
  stopped : .stopped ∈ p.workers → tasks ≤ p.next

theorem accounts_start (jobs tasks : Nat) :
    Accounts tasks (start jobs tasks : Pool β) [] [] where
  taken := by simp [start, inFlight, Worker.held?]
  ran := by simp [start, finished, Worker.finished?]
  stopped h := by simp [start] at h

namespace Accounts

variable {tasks : List α} {run : α → ω → β × ω} {n : Nat} {p : Pool β} {ran stored : List Nat}

theorem nodup (h : Accounts n p ran stored) : (p.inFlight ++ stored).Nodup :=
  h.taken.nodup_iff.2 List.nodup_range

/-- Only indices of tasks are held. -/
theorem lt_of_held (h : Accounts n p ran stored) {k : Nat} (hk : k ∈ p.inFlight) : k < n := by
  have hmem := h.taken.subset (List.mem_append_left stored hk)
  rw [List.mem_range] at hmem
  omega

theorem mem_inFlight {i k : Nat} (h : p.Holds i k) : k ∈ p.inFlight := by
  obtain ⟨worker, hworker, hheld⟩ := Option.bind_eq_some_iff.1 h
  exact List.mem_filterMap.2 ⟨worker, List.mem_of_getElem? hworker, hheld⟩

/-- Two workers that hold one index are one worker. -/
theorem holds_unique (h : Accounts n p ran stored) {i j k : Nat} (hi : p.Holds i k)
    (hj : p.Holds j k) : i = j := by
  obtain ⟨v, hv, hvk⟩ := Option.bind_eq_some_iff.1 hi
  obtain ⟨u, hu, huk⟩ := Option.bind_eq_some_iff.1 hj
  obtain ⟨hilt, rfl⟩ := List.getElem?_eq_some_iff.1 hv
  obtain ⟨hjlt, rfl⟩ := List.getElem?_eq_some_iff.1 hu
  have hdistinct := List.pairwise_iff_getElem.1
    (List.pairwise_filterMap.1 (List.nodup_append.1 h.nodup).1)
  rcases Nat.lt_trichotomy i j with hlt | heq | hlt
  · exact absurd rfl (hdistinct i j hilt hjlt hlt k hvk k huk)
  · exact heq
  · exact absurd rfl (hdistinct j i hjlt hilt hlt k huk k hvk)

/-- A worker takes an index, or stops behind the last task. -/
theorem take (h : Accounts n p ran stored) {i : Nat} (hi : p.workers[i]? = some .idle) :
    Accounts n ({ p with next := p.next + 1 }.setWorker i
      (if p.next < n then .busy p.next else .stopped)) ran stored := by
  by_cases hn : p.next < n
  · rw [if_pos hn]
    have hheld := filterMap_set Worker.held? hi (.busy p.next)
    have hfinished := filterMap_set Worker.finished? hi (.busy p.next)
    refine ⟨?_, (hfinished.append_right stored).trans h.ran, fun hmem => ?_⟩
    · have hmore : List.range (min (p.next + 1) n) = List.range (min p.next n) ++ [p.next] := by
        rw [Nat.min_eq_left hn, List.range_succ, Nat.min_eq_left (Nat.le_of_lt hn)]
      refine (hheld.append_right stored).trans ?_
      change (p.next :: (p.inFlight ++ stored)).Perm (List.range (min (p.next + 1) n))
      rw [hmore]
      exact (h.taken.cons p.next).trans (List.perm_append_singleton ..).symm
    · rcases List.mem_or_eq_of_mem_set hmem with hmem | heq
      · exact Nat.le_succ_of_le (h.stopped hmem)
      · cases heq
  · rw [if_neg hn]
    have hheld := filterMap_set Worker.held? hi .stopped
    have hfinished := filterMap_set Worker.finished? hi .stopped
    refine ⟨?_, (hfinished.append_right stored).trans h.ran, fun _ => ?_⟩
    · have hsame : min (p.next + 1) n = min p.next n := by omega
      refine (hheld.append_right stored).trans ?_
      change (p.inFlight ++ stored).Perm (List.range (min (p.next + 1) n))
      rw [hsame]
      exact h.taken
    · change n ≤ p.next + 1
      omega

/-- The task of a taken index is worked on. -/
theorem work (h : Accounts n p ran stored) {i k : Nat} (hi : p.workers[i]? = some (.busy k))
    (r : β) : Accounts n (p.setWorker i (.holding k r)) (ran ++ [k]) stored := by
  have hheld := filterMap_set Worker.held? hi (.holding k r)
  have hfinished := filterMap_set Worker.finished? hi (.holding k r)
  refine ⟨?_, ?_, fun hmem => ?_⟩
  · exact ((List.perm_append_left_iff [k]).1 hheld |>.append_right stored).trans h.taken
  · refine (hfinished.append_right stored).trans ?_
    exact ((h.ran.append_left [k]).trans List.perm_append_comm)
  · rcases List.mem_or_eq_of_mem_set hmem with hmem | heq
    · exact h.stopped hmem
    · cases heq

/-- The result of a task is stored. -/
theorem store (h : Accounts n p ran stored) {i k : Nat} {r : β}
    (hi : p.workers[i]? = some (.holding k r)) (slots : List (Option β)) :
    Accounts n ({ p with slots }.setWorker i .idle) ran (stored ++ [k]) := by
  have hheld := filterMap_set Worker.held? hi .idle
  have hfinished := filterMap_set Worker.finished? hi .idle
  have hmoved : ∀ {before after : List Nat}, ([k] ++ after).Perm before →
      (after ++ (stored ++ [k])).Perm (before ++ stored) := by
    intro before after hperm
    refine List.Perm.trans ?_ (hperm.append_right stored)
    rw [← List.append_assoc]
    exact List.perm_append_comm.trans (List.append_assoc .. ▸ .refl _)
  refine ⟨(hmoved hheld).trans h.taken, (hmoved hfinished).trans h.ran, fun hmem => ?_⟩
  rcases List.mem_or_eq_of_mem_set hmem with hmem | heq
  · exact h.stopped hmem
  · cases heq

/-- A step keeps the accounts. -/
theorem step (h : Accounts tasks.length p ran stored) (i : Nat) (w : ω) :
    Accounts tasks.length (p.step tasks run i w).1
      (ran ++ (p.workers[i]?.bind Worker.running?).toList)
      (stored ++ (p.workers[i]?.bind Worker.finished?).toList) := by
  rcases hi : p.workers[i]? with _ | (_ | k | ⟨k, r⟩ | _)
  · rw [step_none w hi]
    simpa using h
  · rw [step_idle w hi]
    simpa [Worker.running?, Worker.finished?] using h.take hi
  · have hk : k < tasks.length :=
      h.lt_of_held (mem_inFlight (i := i) (by rw [Holds, hi]; rfl))
    rw [step_busy w hi (List.getElem?_eq_getElem hk)]
    simpa [Worker.running?, Worker.finished?] using h.work hi _
  · rw [step_holding w hi]
    simpa [Worker.running?, Worker.finished?] using h.store hi _
  · rw [step_stopped w hi]
    simpa [Worker.running?, Worker.finished?] using h

/-- A schedule keeps the accounts. -/
theorem follow (h : Accounts tasks.length p ran stored) (schedule : List Nat) (w : ω) :
    Accounts tasks.length (p.follow tasks run schedule w).1
      (ran ++ observed Worker.running? tasks run schedule p w)
      (stored ++ observed Worker.finished? tasks run schedule p w) := by
  induction schedule generalizing p ran stored w with
  | nil => simpa [Pool.follow, observed] using h
  | cons i rest ih =>
    rw [Pool.follow, observed, observed, ← List.append_assoc, ← List.append_assoc]
    exact ih (h.step i w) _

theorem finished_sublist (p : Pool β) : p.finished.Sublist p.inFlight := by
  obtain ⟨next, workers, slots⟩ := p
  induction workers with
  | nil => exact .slnil
  | cons v ws ih =>
    cases v with
    | idle => exact ih
    | busy k => exact ih.cons k
    | holding k r => exact ih.cons_cons k
    | stopped => exact ih

/-- No task is worked on twice. -/
theorem ran_nodup (h : Accounts n p ran stored) : ran.Nodup :=
  h.ran.nodup_iff.1 (((finished_sublist p).append_right stored).nodup h.nodup)

/-- Only tasks are worked on. -/
theorem lt_of_ran (h : Accounts n p ran stored) {k : Nat} (hk : k ∈ ran) : k < n := by
  have hmem := h.taken.subset
    (((finished_sublist p).append_right stored).subset (h.ran.symm.subset hk))
  rw [List.mem_range] at hmem
  omega

/-- When all workers have stopped, each task was worked on and each result stored. -/
theorem of_allStopped (h : Accounts n p ran stored) (hstopped : p.AllStopped)
    (hworkers : p.workers ≠ []) :
    ran.Perm (List.range n) ∧ stored.Perm (List.range n) := by
  have hnone : p.inFlight = [] := by
    refine List.filterMap_eq_nil_iff.2 fun v hv => ?_
    rw [hstopped v hv]
    rfl
  have hfinished : p.finished = [] := List.eq_nil_of_sublist_nil (hnone ▸ finished_sublist p)
  obtain ⟨v, hv⟩ := List.exists_mem_of_ne_nil _ hworkers
  have htaken := h.taken
  have hran := h.ran
  rw [hnone, List.nil_append, Nat.min_eq_right (h.stopped (hstopped v hv ▸ hv))] at htaken
  rw [hfinished, List.nil_append] at hran
  exact ⟨hran.symm.trans htaken, htaken⟩

end Accounts

/-! ## Results -/

/-- The world after some of the tasks, given by their indices. -/
def worldAfter (tasks : List α) (run : α → ω → β × ω) (indices : List Nat) (w : ω) : ω :=
  indices.foldl (fun w k => tasks[k]?.elim w fun t => (run t w).2) w

/-- Some of `n` tasks other than the one with index `k`, in some order. -/
structure Others (n k : Nat) (indices : List Nat) : Prop where
  nodup : indices.Nodup
  notMem : k ∉ indices
  lt : ∀ j ∈ indices, j < n

/-- A result of a task: in the world that it meets, which other tasks have left. -/
def IsResult (tasks : List α) (run : α → ω → β × ω) (w : ω) (k : Nat) (r : β) : Prop :=
  ∃ t before, tasks[k]? = some t ∧ Others tasks.length k before ∧
    r = (run t (worldAfter tasks run before w)).1

/-- The result of each task is the same after any other tasks. -/
def Independent (tasks : List α) (run : α → ω → β × ω) (w : ω) : Prop :=
  ∀ k t before, tasks[k]? = some t → Others tasks.length k before →
    (run t (worldAfter tasks run before w)).1 = (run t w).1

/-- Tasks that come before one in an order are other tasks. -/
theorem others_of_prefix {n k : Nat} {before order : List Nat} (hnodup : order.Nodup)
    (hlt : ∀ j ∈ order, j < n) (h : before ++ [k] <+: order) : Others n k before := by
  obtain ⟨hbefore, -, hdisjoint⟩ := List.nodup_append.1 (h.sublist.nodup hnodup)
  exact ⟨hbefore, fun hmem => hdisjoint k hmem k (List.mem_singleton_self k) rfl,
    fun j hj => hlt j (h.subset (List.mem_append_left _ hj))⟩

/-- The result of a task that was worked on, in the world that those before it have left. -/
def IsMet (tasks : List α) (run : α → ω → β × ω) (w : ω) (ran : List Nat) (k : Nat) (r : β) :
    Prop :=
  ∃ t before, tasks[k]? = some t ∧ before ++ [k] <+: ran ∧
    r = (run t (worldAfter tasks run before w)).1

section IsMet

variable {tasks : List α} {run : α → ω → β × ω} {w : ω} {ran more : List Nat} {k : Nat} {r : β}

theorem IsMet.mono (h : IsMet tasks run w ran k r) (hmore : ran <+: more) :
    IsMet tasks run w more k r := by
  obtain ⟨t, before, ht, hbefore, hr⟩ := h
  exact ⟨t, before, ht, hbefore.trans hmore, hr⟩

/-- Those before it are other tasks, when no task is worked on twice. -/
theorem IsMet.isResult (h : IsMet tasks run w ran k r) (hnodup : ran.Nodup)
    (hlt : ∀ j ∈ ran, j < tasks.length) : IsResult tasks run w k r := by
  obtain ⟨t, before, ht, hbefore, hr⟩ := h
  exact ⟨t, before, ht, others_of_prefix hnodup hlt hbefore, hr⟩

end IsMet

/-- What workers hold and what is stored are results, each in its slot. -/
structure Answers (tasks : List α) (run : α → ω → β × ω) (w₀ : ω) (p : Pool β) (w : ω)
    (ran stored : List Nat) : Prop where
  world : w = worldAfter tasks run ran w₀
  held : ∀ k r, .holding k r ∈ p.workers → IsMet tasks run w₀ ran k r
  length_slots : p.slots.length = tasks.length
  slots : ∀ k ∈ stored, ∃ r, p.slots[k]? = some (some r) ∧ IsMet tasks run w₀ ran k r

theorem answers_start (jobs : Nat) (tasks : List α) (run : α → ω → β × ω) (w : ω) :
    Answers tasks run w (start jobs tasks.length) w [] [] where
  world := rfl
  held k r h := by simp [start] at h
  length_slots := by simp [start]
  slots k h := by simp at h

namespace Answers

variable {tasks : List α} {run : α → ω → β × ω} {w₀ w : ω} {p : Pool β} {ran stored : List Nat}

/-- A worker that does something else holds no other result. -/
theorem setWorker (h : Answers tasks run w₀ p w ran stored) (i next : Nat) {v : Worker β}
    (hv : ∀ k r, v ≠ .holding k r) :
    Answers tasks run w₀ ({ p with next }.setWorker i v) w ran stored := by
  refine ⟨h.world, fun k r hmem => ?_, h.length_slots, h.slots⟩
  rcases List.mem_or_eq_of_mem_set hmem with hmem | heq
  · exact h.held k r hmem
  · exact absurd heq.symm (hv k r)

/-- A task that is worked on has a result. -/
theorem work (h : Answers tasks run w₀ p w ran stored) (i : Nat) {k : Nat} {t : α}
    (ht : tasks[k]? = some t) :
    Answers tasks run w₀ (p.setWorker i (.holding k (run t w).1)) (run t w).2 (ran ++ [k])
      stored := by
  obtain ⟨rfl, hheld, hlength, hslots⟩ := h
  have hmore : ran <+: ran ++ [k] := List.prefix_append ..
  refine ⟨?_, fun j r hmem => ?_, hlength, fun j hj => ?_⟩
  · simp [worldAfter, ht]
  · rcases List.mem_or_eq_of_mem_set hmem with hmem | heq
    · exact (hheld j r hmem).mono hmore
    · cases heq
      exact ⟨t, ran, ht, List.prefix_refl _, rfl⟩
  · obtain ⟨r, hr, hmet⟩ := hslots j hj
    exact ⟨r, hr, hmet.mono hmore⟩

/-- A result that is held is stored. -/
theorem store (h : Answers tasks run w₀ p w ran stored) (i : Nat) {k : Nat} {r : β}
    (hr : .holding k r ∈ p.workers) :
    Answers tasks run w₀ ({ p with slots := p.slots.set k (some r) }.setWorker i .idle) w ran
      (stored ++ [k]) := by
  have hresult := h.held k r hr
  obtain ⟨t, before, ht, -⟩ := hresult
  have hk : k < p.slots.length := h.length_slots ▸ (List.getElem?_eq_some_iff.1 ht).1
  refine ⟨h.world, fun j u hmem => ?_, by simpa [Pool.setWorker] using h.length_slots,
    fun j hj => ?_⟩
  · rcases List.mem_or_eq_of_mem_set hmem with hmem | heq
    · exact h.held j u hmem
    · cases heq
  · by_cases heq : k = j
    · subst heq
      exact ⟨r, by simp [Pool.setWorker, hk], h.held k r hr⟩
    · have hbefore : j ∈ stored := by simpa [Ne.symm heq] using hj
      obtain ⟨u, hu, hju⟩ := h.slots j hbefore
      exact ⟨u, by simpa [Pool.setWorker, heq] using hu, hju⟩

theorem step (h : Answers tasks run w₀ p w ran stored)
    (haccounts : Accounts tasks.length p ran stored) (i : Nat) :
    Answers tasks run w₀ (p.step tasks run i w).1 (p.step tasks run i w).2
      (ran ++ (p.workers[i]?.bind Worker.running?).toList)
      (stored ++ (p.workers[i]?.bind Worker.finished?).toList) := by
  rcases hi : p.workers[i]? with _ | (_ | k | ⟨k, r⟩ | _)
  · rw [step_none w hi]
    simpa using h
  · rw [step_idle w hi]
    simp only [Option.bind_some, Worker.running?, Worker.finished?, Option.toList_none,
      List.append_nil]
    exact h.setWorker i (p.next + 1) fun k r => by split <;> simp
  · have hk : k < tasks.length :=
      haccounts.lt_of_held (Accounts.mem_inFlight (i := i) (by rw [Holds, hi]; rfl))
    rw [step_busy w hi (List.getElem?_eq_getElem hk)]
    simpa [Worker.running?, Worker.finished?] using h.work i (List.getElem?_eq_getElem hk)
  · rw [step_holding w hi]
    simpa [Worker.running?, Worker.finished?] using h.store i (List.mem_of_getElem? hi)
  · rw [step_stopped w hi]
    simpa [Worker.running?, Worker.finished?] using h

theorem follow (h : Answers tasks run w₀ p w ran stored)
    (haccounts : Accounts tasks.length p ran stored) (schedule : List Nat) :
    Answers tasks run w₀ (p.follow tasks run schedule w).1 (p.follow tasks run schedule w).2
      (ran ++ observed Worker.running? tasks run schedule p w)
      (stored ++ observed Worker.finished? tasks run schedule p w) := by
  induction schedule generalizing p ran stored w with
  | nil => simpa [Pool.follow, observed] using h
  | cons i rest ih =>
    rw [Pool.follow, observed, observed, ← List.append_assoc, ← List.append_assoc]
    exact ih (h.step haccounts i) (haccounts.step i w)

end Answers

/-! ## Stopping -/

/-- How far a worker is after some of its own steps, three for each task. It has taken one index for
each task, so the last one is no smaller than the number of tasks before. -/
def HasTaken (n next steps : Nat) : Worker β → Prop
  | .stopped => True
  | .idle => ∃ done, steps = 3 * done ∧ done ≤ next ∧ done ≤ n
  | .busy k => ∃ done, steps = 3 * done + 1 ∧ done ≤ k ∧ k < next ∧ k < n
  | .holding k _ => ∃ done, steps = 3 * done + 2 ∧ done ≤ k ∧ k < next ∧ k < n

theorem HasTaken.mono {n next more steps : Nat} {v : Worker β} (h : HasTaken n next steps v)
    (hmore : next ≤ more) : HasTaken n more steps v := by
  cases v with
  | stopped => trivial
  | idle =>
    obtain ⟨done, hsteps, hnext, hn⟩ := h
    exact ⟨done, hsteps, Nat.le_trans hnext hmore, hn⟩
  | busy k =>
    obtain ⟨done, hsteps, hdone, hnext, hn⟩ := h
    exact ⟨done, hsteps, hdone, Nat.lt_of_lt_of_le hnext hmore, hn⟩
  | holding k r =>
    obtain ⟨done, hsteps, hdone, hnext, hn⟩ := h
    exact ⟨done, hsteps, hdone, Nat.lt_of_lt_of_le hnext hmore, hn⟩

/-- A worker that goes on has taken few steps. -/
theorem HasTaken.eq_stopped {n next steps : Nat} {v : Worker β} (h : HasTaken n next steps v)
    (hsteps : rounds n ≤ steps) : v = .stopped := by
  rw [rounds] at hsteps
  cases v with
  | stopped => rfl
  | idle =>
    obtain ⟨done, rfl, -, hn⟩ := h
    omega
  | busy k =>
    obtain ⟨done, rfl, hdone, -, hn⟩ := h
    omega
  | holding k r =>
    obtain ⟨done, rfl, hdone, -, hn⟩ := h
    omega

section Stopping

variable {tasks : List α} {run : α → ω → β × ω} {p : Pool β} {i steps : Nat} {v : Worker β}

/-- A step takes its worker one step further and leaves the other workers alone. -/
theorem hasTaken_step (w : ω) (j : Nat) (hi : p.workers[i]? = some v)
    (h : HasTaken tasks.length p.next steps v) : ∃ u,
      (p.step tasks run j w).1.workers[i]? = some u ∧
      HasTaken tasks.length (p.step tasks run j w).1.next (steps + [j].count i) u := by
  have hlt := (List.getElem?_eq_some_iff.1 hi).1
  have hset : ∀ u : Worker β, (p.workers.set i u)[i]? = some u := fun u => by simp [hlt]
  have hother : ∀ u : Worker β, j ≠ i → (p.workers.set j u)[i]? = some v := fun u hne => by
    rw [List.getElem?_set_ne hne, hi]
  by_cases hji : j = i
  · subst hji
    have hcount : [j].count j = 1 := by simp
    rw [hcount]
    cases v with
    | idle =>
      obtain ⟨done, rfl, hnext, hn⟩ := h
      rw [step_idle w hi]
      refine ⟨_, hset _, ?_⟩
      split
      · exact ⟨done, rfl, hnext, Nat.lt_succ_self _, ‹_›⟩
      · trivial
    | busy k =>
      obtain ⟨done, rfl, hdone, hnext, hn⟩ := h
      rw [step_busy w hi (List.getElem?_eq_getElem hn)]
      exact ⟨_, hset _, done, rfl, hdone, hnext, hn⟩
    | holding k r =>
      obtain ⟨done, rfl, hdone, hnext, hn⟩ := h
      rw [step_holding w hi]
      exact ⟨_, hset _, done + 1, by omega, by simp only [setWorker]; omega, by omega⟩
    | stopped =>
      rw [step_stopped w hi]
      exact ⟨_, hi, trivial⟩
  · have hcount : [j].count i = 0 := by simp [hji]
    rw [hcount]
    rcases hj : p.workers[j]? with _ | (_ | k | ⟨k, r⟩ | _)
    · rw [step_none w hj]
      exact ⟨v, hi, h⟩
    · rw [step_idle w hj]
      exact ⟨v, hother _ hji, h.mono (Nat.le_succ _)⟩
    · cases ht : tasks[k]? with
      | none =>
        have hstuck : p.step tasks run j w = (p, w) := by
          rw [step, hj]
          dsimp only
          rw [ht]
        rw [hstuck]
        exact ⟨v, hi, h⟩
      | some t =>
        rw [step_busy w hj ht]
        exact ⟨v, hother _ hji, h⟩
    · rw [step_holding w hj]
      exact ⟨v, hother _ hji, h⟩
    · rw [step_stopped w hj]
      exact ⟨v, hi, h⟩

theorem hasTaken_follow (schedule : List Nat) (w : ω) (hi : p.workers[i]? = some v)
    (h : HasTaken tasks.length p.next steps v) : ∃ u,
      (p.follow tasks run schedule w).1.workers[i]? = some u ∧
      HasTaken tasks.length (p.follow tasks run schedule w).1.next
        (steps + schedule.count i) u := by
  induction schedule generalizing p v steps w with
  | nil => exact ⟨v, hi, h⟩
  | cons j rest ih =>
    obtain ⟨u, hu, htaken⟩ : ∃ u, (p.step tasks run j w).1.workers[i]? = some u ∧
        HasTaken tasks.length (p.step tasks run j w).1.next (steps + [j].count i) u :=
      hasTaken_step w j hi h
    obtain ⟨u', hu', htaken'⟩ := ih (p.step tasks run j w).2 hu htaken
    refine ⟨u', hu', ?_⟩
    have hcount : (j :: rest).count i = [j].count i + rest.count i := by
      rw [← List.singleton_append, List.count_append]
    rw [hcount, ← Nat.add_assoc]
    exact htaken'

theorem length_workers_step (j : Nat) (w : ω) :
    (p.step tasks run j w).1.workers.length = p.workers.length := by
  rw [step]
  split
  · simp [setWorker]
  · split <;> simp [setWorker]
  · simp [setWorker]
  · rfl
  · rfl

theorem length_workers_follow (schedule : List Nat) (w : ω) :
    (p.follow tasks run schedule w).1.workers.length = p.workers.length := by
  induction schedule generalizing p w with
  | nil => rfl
  | cons j rest ih =>
    rw [follow]
    exact (ih _).trans (length_workers_step j w)

/-- All workers stop in a schedule that lets each of them take enough steps. -/
theorem allStopped_of_count {jobs : Nat} {schedule : List Nat}
    (hcount : ∀ i < size jobs tasks.length, rounds tasks.length ≤ schedule.count i) (w : ω) :
    (follow tasks run schedule (start jobs tasks.length) w).1.AllStopped := by
  intro v hv
  obtain ⟨i, hi⟩ := List.getElem?_of_mem hv
  have hlt := (List.getElem?_eq_some_iff.1 hi).1
  rw [length_workers_follow] at hlt
  have hsize : i < size jobs tasks.length := by simpa [start] using hlt
  have hidle : (start jobs tasks.length : Pool β).workers[i]? = some .idle := by
    simp [start, hsize]
  obtain ⟨u, hu, htaken⟩ : ∃ u,
      (follow tasks run schedule (start jobs tasks.length) w).1.workers[i]? = some u ∧
      HasTaken tasks.length (follow tasks run schedule (start jobs tasks.length) w).1.next
        (0 + schedule.count i) u :=
    hasTaken_follow schedule w hidle ⟨0, rfl, Nat.zero_le _, Nat.zero_le _⟩
  obtain rfl : v = u := Option.some.inj (hi.symm.trans hu)
  exact htaken.eq_stopped (Nat.le_trans (hcount i hsize) (by omega))

/-- Taking turns is such a schedule. -/
theorem allStopped_inTurns (jobs : Nat) (w : ω) :
    (follow tasks run (inTurns jobs tasks.length) (start jobs tasks.length) w).1.AllStopped := by
  refine allStopped_of_count (fun i hi => ?_) w
  have hround : 0 < (List.range (size jobs tasks.length)).count i :=
    List.count_pos_iff.2 (List.mem_range.2 hi)
  rw [inTurns, List.count_flatten, List.map_replicate, List.sum_replicate_nat]
  exact Nat.le_mul_of_pos_right _ hround

end Stopping

/-! ## Pools that have stopped -/

section Stopped

variable (jobs : Nat) (tasks : List α) (run : α → ω → β × ω) (schedule : List Nat) (w : ω)

theorem accounts_follow :
    Accounts tasks.length (follow tasks run schedule (start jobs tasks.length) w).1
      (observed Worker.running? tasks run schedule (start jobs tasks.length) w)
      (observed Worker.finished? tasks run schedule (start jobs tasks.length) w) :=
  (accounts_start jobs tasks.length).follow schedule w

theorem length_workers (p : Pool β)
    (hp : p = (follow tasks run schedule (start jobs tasks.length) w).1) :
    p.workers.length = size jobs tasks.length := by
  rw [hp, length_workers_follow]
  simp [start]

variable {jobs tasks run schedule w}

/-- No worker is left with an index, so each task was worked on once and each result was stored
once. -/
theorem once_of_allStopped
    (h : (follow tasks run schedule (start jobs tasks.length) w).1.AllStopped) :
    (observed Worker.running? tasks run schedule (start jobs tasks.length) w).Perm
        (List.range tasks.length) ∧
      (observed Worker.finished? tasks run schedule (start jobs tasks.length) w).Perm
        (List.range tasks.length) := by
  refine (accounts_follow jobs tasks run schedule w).of_allStopped h fun hnil => ?_
  have hlength := length_workers jobs tasks run schedule w _ rfl
  rw [hnil, List.length_nil, size] at hlength
  omega

/-- Slots that are all filled hold results. -/
theorem exists_map_some {slots : List (Option β)} (h : none ∉ slots) :
    ∃ results : List β, slots = results.map some := by
  induction slots with
  | nil => exact ⟨[], rfl⟩
  | cons slot slots ih =>
    rw [List.mem_cons, not_or] at h
    obtain ⟨hslot, hslots⟩ := h
    obtain ⟨r, rfl⟩ := Option.ne_none_iff_exists'.1 (Ne.symm hslot)
    obtain ⟨results, rfl⟩ := ih hslots
    exact ⟨r :: results, rfl⟩

/-- The tasks were worked on in some order, and every slot has the result of its task. -/
theorem exists_order (h : (follow tasks run schedule (start jobs tasks.length) w).1.AllStopped) :
    ∃ order : List Nat, ∃ results : List β, order.Perm (List.range tasks.length) ∧
      (follow tasks run schedule (start jobs tasks.length) w).2 = worldAfter tasks run order w ∧
      (follow tasks run schedule (start jobs tasks.length) w).1.slots = results.map some ∧
      results.length = tasks.length ∧
      ∀ k r, results[k]? = some r → IsMet tasks run w order k r := by
  have hanswers := (answers_start jobs tasks run w).follow
    (accounts_start jobs tasks.length) schedule
  have hslot := fun k (hk : k < tasks.length) =>
    hanswers.slots k ((once_of_allStopped h).2.symm.subset (List.mem_range.2 hk))
  have hlength := hanswers.length_slots
  have hfull : none ∉ (follow tasks run schedule (start jobs tasks.length) w).1.slots := by
    intro hnone
    obtain ⟨k, hk⟩ := List.getElem?_of_mem hnone
    obtain ⟨r, hr, -⟩ := hslot k (hlength ▸ (List.getElem?_eq_some_iff.1 hk).1)
    exact nomatch hk.symm.trans hr
  obtain ⟨results, hresults⟩ := exists_map_some hfull
  rw [hresults, List.length_map] at hlength
  refine ⟨_, results, (once_of_allStopped h).1, hanswers.world, hresults, hlength,
    fun k r hr => ?_⟩
  obtain ⟨r', hr', hmet⟩ := hslot k (hlength ▸ (List.getElem?_eq_some_iff.1 hr).1)
  rw [hresults, List.getElem?_map, hr] at hr'
  obtain rfl : r = r' := by simpa using hr'
  exact hmet

/-- Every slot has a result of its task. -/
theorem exists_results (h : (follow tasks run schedule (start jobs tasks.length) w).1.AllStopped) :
    ∃ results : List β,
      (follow tasks run schedule (start jobs tasks.length) w).1.slots = results.map some ∧
      results.length = tasks.length ∧
      ∀ k r, results[k]? = some r → IsResult tasks run w k r := by
  obtain ⟨order, results, horder, -, hslots, hlength, hmet⟩ := exists_order h
  refine ⟨results, hslots, hlength, fun k r hr => (hmet k r hr).isResult ?_ fun j hj => ?_⟩
  · exact horder.nodup_iff.2 List.nodup_range
  · exact List.mem_range.1 (horder.subset hj)

/-- Slots of independent tasks do not depend on the schedule. -/
theorem slots_eq_map (h : (follow tasks run schedule (start jobs tasks.length) w).1.AllStopped)
    (hindependent : Independent tasks run w) :
    (follow tasks run schedule (start jobs tasks.length) w).1.slots
      = tasks.map fun t => some (run t w).1 := by
  obtain ⟨results, hslots, hlength, hresults⟩ := exists_results h
  rw [hslots]
  refine List.ext_getElem (by simpa using hlength) fun k hk hk' => ?_
  rw [List.length_map] at hk
  obtain ⟨t, before, ht, hbefore, hr⟩ := hresults k _ (List.getElem?_eq_getElem hk)
  obtain ⟨hlt, rfl⟩ := List.getElem?_eq_some_iff.1 ht
  rw [List.getElem_map, List.getElem_map, hr, hindependent k _ before ht hbefore]

/-- They are those of one worker that takes the tasks in order. -/
theorem slots_eq_results
    (h : (follow tasks run schedule (start jobs tasks.length) w).1.AllStopped)
    (hindependent : Independent tasks run w) :
    (follow tasks run schedule (start jobs tasks.length) w).1.slots
      = (results 1 tasks run w).1 := by
  rw [slots_eq_map h hindependent, results]
  exact (slots_eq_map (allStopped_inTurns 1 w) hindependent).symm

end Stopped

end Pool

end Mend
