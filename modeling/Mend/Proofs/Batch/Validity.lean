import Mend.Batch.Manifest
import Mend.Proofs.Text.Lines

/-!
# Valid manifests

A manifest has no fault exactly when it is valid (`Manifest.fault?_eq_none_iff`): it has tasks, every
task is allowed a turn and has a name of the characters that names may hold, no two tasks have one
name, and the working directory of no task stands at or below that of another one. Where a directory
stands is said by the parts of its place, so `repos/a` does not stand below `repos/a` with another
letter at its end.

The tasks are searched for faults in order, each against those before it. The invariant of the search
says this of all pairs at once (`Manifest.tasksFault?_eq_none_iff`).
-/

namespace Mend

namespace Task

/-- A name of small letters, digits, hyphens and underscores. -/
structure IsSlug (id : Text) : Prop where
  ne_nil : id ≠ []
  chars : ∀ c ∈ id, ('a' ≤ c ∧ c ≤ 'z') ∨ ('0' ≤ c ∧ c ≤ '9') ∨ c = '_' ∨ c = '-'

theorem isIdChar_iff {c : Char} : isIdChar c = true ↔
    ('a' ≤ c ∧ c ≤ 'z') ∨ ('0' ≤ c ∧ c ≤ '9') ∨ c = '_' ∨ c = '-' := by
  have hlower : c.isLower = (decide ('a' ≤ c) && decide (c ≤ 'z')) := rfl
  have hdigit : c.isDigit = (decide ('0' ≤ c) && decide (c ≤ '9')) := rfl
  simp only [isIdChar, hlower, hdigit, Bool.or_eq_true, Bool.and_eq_true, decide_eq_true_eq,
    beq_iff_eq]
  constructor
  · rintro (((hletter | hdigit) | rfl) | rfl)
    · exact .inl hletter
    · exact .inr (.inl hdigit)
    · exact .inr (.inr (.inr rfl))
    · exact .inr (.inr (.inl rfl))
  · rintro (hletter | hdigit | rfl | rfl)
    · exact .inl (.inl (.inl hletter))
    · exact .inl (.inl (.inr hdigit))
    · exact .inr rfl
    · exact .inl (.inr rfl)

/-- No blank is a character of a name. -/
theorem isBlank_of_isIdChar {c : Char} (h : isIdChar c = true) : Text.isBlank c = false := by
  have hrange : 0x20 < c.toNat ∧ c.toNat < 0x7F := by
    rcases isIdChar_iff.1 h with ⟨hlow, hhigh⟩ | ⟨hlow, hhigh⟩ | rfl | rfl
    · exact ⟨Nat.lt_of_lt_of_le (by decide) (Char.le_def.1 hlow),
        Nat.lt_of_le_of_lt (Char.le_def.1 hhigh) (by decide)⟩
    · exact ⟨Nat.lt_of_lt_of_le (by decide) (Char.le_def.1 hlow),
        Nat.lt_of_le_of_lt (Char.le_def.1 hhigh) (by decide)⟩
    · decide
    · decide
  exact Text.isBlank_of_graphic hrange.1 hrange.2

/-- A name is checked for blanks first, and for its characters then. -/
theorem isSlug_iff {id : Text} :
    IsSlug id ↔ id.trim.isEmpty = false ∧ id.all isIdChar = true := by
  constructor
  · rintro ⟨hne, hchars⟩
    have hall : ∀ c ∈ id, isIdChar c = true := fun c hc => isIdChar_iff.2 (hchars c hc)
    have htrim : id.trim = id := Text.trim_of_isBlank fun c hc => isBlank_of_isIdChar (hall c hc)
    refine ⟨?_, List.all_eq_true.2 hall⟩
    rw [htrim, List.isEmpty_eq_false_iff]
    exact hne
  · rintro ⟨hblank, hall⟩
    refine ⟨?_, fun c hc => isIdChar_iff.1 (List.all_eq_true.1 hall c hc)⟩
    rintro rfl
    cases hblank

end Task

namespace Manifest

/-- What a manifest must be like, when `place` says where directories are. -/
structure IsValid (place : Text → List PathPart) (m : Manifest) : Prop where
  tasks_ne_nil : m.tasks ≠ []
  defaultTurns : m.defaults.maxTurns ≠ some 0
  turns : ∀ t ∈ m.tasks, t.maxTurns ≠ some 0
  isSlug : ∀ t ∈ m.tasks, Task.IsSlug t.id
  nodup : (m.tasks.map Task.id).Nodup
  /-- No directory is another one or stands below it, whichever of the two tasks comes first. -/
  apart : ∀ (i j : Nat) (t u : Task), i ≠ j → m.tasks[i]? = some t → m.tasks[j]? = some u →
    ¬ place t.workdir <+: place u.workdir

/-- Two tasks with names of their own and places of which none holds the other. -/
structure Separate (id : Text) (here : List PathPart) (other : Text) (there : List PathPart) :
    Prop where
  id_ne : id ≠ other
  not_below : ¬ here <+: there
  not_above : ¬ there <+: here

section Search

variable {place : Text → List PathPart} {index : Nat} {earlier : List Checked} {tasks : List Task}
  {t : Task}

theorem overlaps_eq_false_iff {a b : List PathPart} :
    overlaps a b = false ↔ ¬ a <+: b ∧ ¬ b <+: a := by
  rw [overlaps, Bool.or_eq_false_iff, ← List.isPrefixOf_iff_prefix, ← List.isPrefixOf_iff_prefix,
    Bool.not_eq_true, Bool.not_eq_true]

/-- A check that finds nothing is passed, and so are those behind it. -/
theorem check_eq_none_iff {α : Type} {c : Prop} [Decidable c] {fault : α} {rest : Option α} :
    (if c then some fault else rest) = none ↔ ¬ c ∧ rest = none := by
  split
  · rename_i hc
    simp [hc]
  · rename_i hc
    simp [hc]

/-- A task has no fault when it is in order by itself and separate from those before it. -/
theorem taskFault?_eq_none_iff : taskFault? place index earlier t = none ↔
    Task.IsSlug t.id ∧ t.maxTurns ≠ some 0 ∧
      ∀ e ∈ earlier, Separate e.id e.place t.id (place t.workdir) := by
  rw [taskFault?, check_eq_none_iff, check_eq_none_iff, check_eq_none_iff, check_eq_none_iff,
    Option.map_eq_none_iff, List.find?_eq_none, Task.isSlug_iff]
  simp only [Bool.not_eq_true, Bool.not_eq_false', List.any_eq_false, decide_eq_true_eq,
    overlaps_eq_false_iff]
  constructor
  · rintro ⟨hblank, hchars, hturns, hids, hplaces⟩
    exact ⟨⟨hblank, hchars⟩, hturns,
      fun e he => ⟨hids e he, (hplaces e he).1, (hplaces e he).2⟩⟩
  · rintro ⟨⟨hblank, hchars⟩, hturns, hearlier⟩
    exact ⟨hblank, hchars, hturns, fun e he => (hearlier e he).id_ne,
      fun e he => ⟨(hearlier e he).not_below, (hearlier e he).not_above⟩⟩

/-- Tasks have no fault when each is in order by itself and they are separate from one another and
from those before them. -/
theorem tasksFault?_eq_none_iff : tasksFault? place index earlier tasks = none ↔
    (∀ t ∈ tasks, Task.IsSlug t.id ∧ t.maxTurns ≠ some 0) ∧
      (∀ e ∈ earlier, ∀ t ∈ tasks, Separate e.id e.place t.id (place t.workdir)) ∧
      tasks.Pairwise fun t u => Separate t.id (place t.workdir) u.id (place u.workdir) := by
  induction tasks generalizing index earlier with
  | nil => simp [tasksFault?]
  | cons t rest ih =>
    have hcons : tasksFault? place index earlier (t :: rest) = none ↔
        taskFault? place index earlier t = none ∧
          tasksFault? place (index + 1) (earlier ++ [⟨t.id, place t.workdir⟩]) rest = none := by
      rw [tasksFault?]
      cases taskFault? place index earlier t <;> simp
    rw [hcons, taskFault?_eq_none_iff, ih]
    -- the task joins those before the others
    simp only [List.forall_mem_cons, List.forall_mem_append, List.pairwise_cons]
    constructor
    · rintro ⟨⟨hslug, hturns, hown⟩, hall, ⟨hbefore, hafter, -⟩, hpairs⟩
      exact ⟨⟨⟨hslug, hturns⟩, hall⟩, fun e he => ⟨hown e he, hbefore e he⟩, hafter, hpairs⟩
    · rintro ⟨⟨⟨hslug, hturns⟩, hall⟩, hearlier, hafter, hpairs⟩
      exact ⟨⟨hslug, hturns, fun e he => (hearlier e he).1⟩, hall,
        ⟨fun e he => (hearlier e he).2, hafter, fun e he => absurd he List.not_mem_nil⟩, hpairs⟩

end Search

/-- Pairs of tasks are separate in order when no two tasks share a name and no place holds another
one. -/
theorem pairwise_separate_iff {place : Text → List PathPart} {tasks : List Task} :
    (tasks.Pairwise fun t u => Separate t.id (place t.workdir) u.id (place u.workdir)) ↔
      (tasks.map Task.id).Nodup ∧
        ∀ (i j : Nat) (t u : Task), i ≠ j → tasks[i]? = some t → tasks[j]? = some u →
          ¬ place t.workdir <+: place u.workdir := by
  have hids : (tasks.map Task.id).Nodup ↔ tasks.Pairwise fun t u => t.id ≠ u.id :=
    List.pairwise_map
  rw [hids, List.pairwise_iff_getElem, List.pairwise_iff_getElem]
  constructor
  · intro h
    refine ⟨fun i j hi hj hij => (h i j hi hj hij).id_ne, fun i j t u hij ht hu => ?_⟩
    obtain ⟨hi, rfl⟩ := List.getElem?_eq_some_iff.1 ht
    obtain ⟨hj, rfl⟩ := List.getElem?_eq_some_iff.1 hu
    rcases Nat.lt_or_gt_of_ne hij with hlt | hlt
    · exact (h i j hi hj hlt).not_below
    · exact (h j i hj hi hlt).not_above
  · rintro ⟨hids, hapart⟩ i j hi hj hij
    have hgeti : tasks[i]? = some tasks[i] := List.getElem?_eq_getElem hi
    have hgetj : tasks[j]? = some tasks[j] := List.getElem?_eq_getElem hj
    exact ⟨hids i j hi hj hij, hapart i j _ _ (Nat.ne_of_lt hij) hgeti hgetj,
      hapart j i _ _ (Nat.ne_of_gt hij) hgetj hgeti⟩

section Faults

variable {place : Text → List PathPart} {m : Manifest}

/-- The tasks are searched for faults after what is said of all of them. -/
theorem fault?_eq_none : m.fault? place = none ↔
    m.tasks ≠ [] ∧ m.defaults.maxTurns ≠ some 0 ∧ tasksFault? place 0 [] m.tasks = none := by
  rw [fault?, check_eq_none_iff, check_eq_none_iff, List.isEmpty_iff]

theorem isValid_of_fault? (h : m.fault? place = none) : m.IsValid place := by
  obtain ⟨hne, hdefault, htasks⟩ := fault?_eq_none.1 h
  obtain ⟨hall, -, hpairs⟩ := tasksFault?_eq_none_iff.1 htasks
  obtain ⟨hnodup, hapart⟩ := pairwise_separate_iff.1 hpairs
  exact ⟨hne, hdefault, fun t ht => (hall t ht).2, fun t ht => (hall t ht).1, hnodup, hapart⟩

theorem IsValid.fault? (h : m.IsValid place) : m.fault? place = none := by
  have hall : ∀ t ∈ m.tasks, Task.IsSlug t.id ∧ t.maxTurns ≠ some 0 :=
    fun t ht => ⟨h.isSlug t ht, h.turns t ht⟩
  have hpairs := pairwise_separate_iff.2 ⟨h.nodup, h.apart⟩
  exact fault?_eq_none.2
    ⟨h.tasks_ne_nil, h.defaultTurns, tasksFault?_eq_none_iff.2 ⟨hall, nofun, hpairs⟩⟩

end Faults

/-- A manifest has no fault exactly when it is valid, wherever its directories are. -/
theorem fault?_eq_none_iff (place : Text → List PathPart) (m : Manifest) :
    m.fault? place = none ↔ m.IsValid place :=
  ⟨isValid_of_fault?, IsValid.fault?⟩

/-- Directories whose names start alike are beside each other. -/
example : fault? Path.parts ⟨{}, [⟨['a'], "repos/a".toList, [], none, none⟩,
    ⟨['b'], "repos/ab".toList, [], none, none⟩]⟩ = none := by decide +kernel

/-- A directory that holds another one is found behind it too, and with a task between them. -/
example : fault? Path.parts ⟨{}, [⟨['a'], "repos/a".toList, [], none, none⟩,
    ⟨['b'], "other".toList, [], none, none⟩, ⟨['c'], "repos".toList, [], none, none⟩]⟩
      = some (.overlap ['c'] "repos".toList ['a']) := by decide +kernel

end Manifest

end Mend
