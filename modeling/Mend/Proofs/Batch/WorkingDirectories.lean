import Mathlib.Control.Monad.Basic
import Mend.Proofs.Batch.Validity
import Mend.Proofs.Disk.Subtrees

/-!
# Working directories of a manifest

A manifest is accepted when the places of its working directories are apart, where the place of a
path that leads nowhere is the path as it is written. Such a place says where the path would lead
when it has no two points and starts where the other one starts, and then the directories are apart
(`Manifest.load_apart`). Two points behind a directory that is missing are not resolved, so one
directory can be accepted for two tasks (`Manifest.load_not_apart`).
-/

namespace Mend

namespace Disk

/-- Pieces without two points lead to their names. -/
theorem exists_names (loc : Location) {pieces : List Text} (hup : ['.', '.'] ∉ pieces)
    (hne : [] ∉ pieces) : ∃ names : List Text,
      pieces.filterMap Path.part? = names.map .name ∧
      destinationFrom loc pieces = loc ++ names := by
  induction pieces generalizing loc with
  | nil => exact ⟨[], rfl, (List.append_nil loc).symm⟩
  | cons piece rest ih =>
    rw [List.mem_cons, not_or] at hup hne
    rw [destinationFrom, if_neg (Ne.symm hup.1)]
    by_cases hpoint : piece = ['.']
    · obtain ⟨names, hparts, hdest⟩ := ih loc hup.2 hne.2
      rw [if_pos hpoint]
      refine ⟨names, ?_, hdest⟩
      rw [List.filterMap_cons_none (by simp [Path.part?, hpoint]), hparts]
    · obtain ⟨names, hparts, hdest⟩ := ih (loc ++ [piece]) hup.2 hne.2
      rw [if_neg hpoint]
      refine ⟨piece :: names, ?_, by rw [hdest, List.append_assoc]; rfl⟩
      have hpart : Path.part? piece = some (.name piece) := by
        simp [Path.part?, hpoint, Ne.symm hup.1, Ne.symm hne.1]
      rw [List.filterMap_cons_some hpart, hparts, List.map_cons]

/-- A path that leads somewhere, or has no two points. -/
def IsPlain (d : Disk) (path : Text) : Prop :=
  (d.canonical? path).isSome ∨ ['.', '.'] ∉ Path.pieces path

/-- What the place of a path starts with. -/
def anchor (d : Disk) (path : Text) : List PathPart :=
  if (d.canonical? path).isSome then [.root] else Path.head path

/-- The place of a plain path names its destination. -/
theorem IsPlain.exists_place {d : Disk} {path : Text} (h : d.IsPlain path) : ∃ names,
    d.place path = d.anchor path ++ names.map .name ∧
    destination d.home path = (if d.anchor path = [.root] then [] else d.home) ++ names := by
  rw [place, anchor]
  cases hcanonical : d.canonical? path with
  | some loc =>
    obtain ⟨⟨loc', node⟩, hfind, rfl⟩ := Option.map_eq_some_iff.1 hcanonical
    refine ⟨loc', rfl, ?_⟩
    rw [Option.isSome_some, if_pos rfl, if_pos rfl, List.nil_append]
    -- a path is found where a walk ends
    rw [find] at hfind
    cases hwalk : d.walk path with
    | error e => simp [hwalk, Except.toOption] at hfind
    | ok dest =>
      cases hnode : d.node? dest with
      | none => simp [hwalk, hnode, Except.toOption] at hfind
      | some found =>
        obtain ⟨rfl, -⟩ : dest = loc' ∧ found = node := by
          simpa [hwalk, hnode, Except.toOption] using hfind
        exact (destination_of_walk hwalk).symm
  | none =>
    have hup : ['.', '.'] ∉ Path.pieces path := by
      rcases h with hsome | hup
      · simp [hcanonical] at hsome
      · exact hup
    have hne : [] ∉ Path.pieces path := by simp [Path.pieces]
    obtain ⟨names, hparts, hdest⟩ :=
      exists_names (if Path.isAbsolute path then [] else d.home) hup hne
    refine ⟨names, ?_, ?_⟩
    · rw [Option.isSome_none, if_neg Bool.false_ne_true]
      exact (Path.parts_eq path).trans (by rw [hparts])
    · rw [Option.isSome_none, if_neg Bool.false_ne_true, destination, hdest, Path.head]
      by_cases habsolute : Path.isAbsolute path
      · rw [if_pos habsolute, if_pos habsolute, if_pos rfl]
      · rw [if_neg habsolute, if_neg habsolute, if_neg (by split <;> simp)]

end Disk

namespace Manifest

/-! ## Accepted tasks -/

/-- A manifest that is loaded has no fault. -/
theorem fault?_of_load {path : Text} {d : Disk} {m : Manifest} (h : load path d = .ok m) :
    m.fault? d.place = none := by
  rw [load] at h
  split at h
  · cases h
  split at h
  · cases h
  dsimp only at h
  split at h
  · cases h
  · rename_i hfault
    cases h
    exact hfault

/-- The places of its tasks do not overlap. -/
theorem overlaps_of_load {path : Text} {d : Disk} {m : Manifest} (h : load path d = .ok m)
    {i j : Nat} (hij : i ≠ j) {t u : Task} (ht : m.tasks[i]? = some t)
    (hu : m.tasks[j]? = some u) : overlaps (d.place t.workdir) (d.place u.workdir) = false := by
  have hvalid := isValid_of_fault? (fault?_of_load h)
  exact overlaps_eq_false_iff.2
    ⟨hvalid.apart i j t u hij ht hu, hvalid.apart j i u t hij.symm hu ht⟩

/-! ## Where their directories are -/

/-- A directory below another one is a place below its place. -/
theorem place_prefix_place {d : Disk} {path other : Text} (hpath : d.IsPlain path)
    (hother : d.IsPlain other) (hanchor : d.anchor path = d.anchor other)
    (h : Disk.destination d.home path <+: Disk.destination d.home other) :
    d.place path <+: d.place other := by
  obtain ⟨names, hplace, hdest⟩ := hpath.exists_place
  obtain ⟨more, hplace', hdest'⟩ := hother.exists_place
  rw [hdest, hdest', hanchor, List.prefix_append_right_inj] at h
  rw [hplace, hplace', hanchor, List.prefix_append_right_inj]
  exact h.map PathPart.name

/-- The working directories of two tasks of an accepted manifest are apart, if those that lead
nowhere have no two points and the paths start in one place. -/
theorem load_apart {path : Text} {d : Disk} {m : Manifest} (h : load path d = .ok m)
    {i j : Nat} (hij : i ≠ j) {t u : Task} (ht : m.tasks[i]? = some t)
    (hu : m.tasks[j]? = some u) (htplain : d.IsPlain t.workdir) (huplain : d.IsPlain u.workdir)
    (hanchor : d.anchor t.workdir = d.anchor u.workdir) :
    Disk.Apart (Disk.destination d.home t.workdir) (Disk.destination d.home u.workdir) := by
  have hoverlaps := overlaps_of_load h hij ht hu
  rw [overlaps, Bool.or_eq_false_iff] at hoverlaps
  constructor
  · intro hbelow
    have hplaces := place_prefix_place htplain huplain hanchor hbelow
    exact Bool.eq_false_iff.1 hoverlaps.1 (List.isPrefixOf_iff_prefix.2 hplaces)
  · intro habove
    have hplaces := place_prefix_place huplain htplain hanchor.symm habove
    exact Bool.eq_false_iff.1 hoverlaps.2 (List.isPrefixOf_iff_prefix.2 hplaces)

/-- A disk with a directory for tasks, and a manifest with another task whose directory is
missing. -/
def sampleDisk (workdir : Text) : Disk where
  entries :=
    [([], .dir), (["repo".toList], .dir),
     (["m.toml".toList], .file (Text.toBytes
      ("[[tasks]]\nid = \"a\"\nworkdir = \"repo\"\nprompt = \"p\"\n".toList ++
       "[[tasks]]\nid = \"b\"\nworkdir = \"".toList ++ workdir ++
       "\"\nprompt = \"p\"\n".toList)))]
  home := []

/-- What is read from it. -/
def sampleManifest (workdir : Text) : Manifest where
  defaults := {}
  tasks :=
    [⟨['a'], "/repo".toList, "/p".toList, none, none⟩,
     ⟨['b'], workdir, "/p".toList, none, none⟩]

theorem load_apart_sample :
    let d := sampleDisk "./gone".toList
    let m := sampleManifest "/./gone".toList
    load "/m.toml".toList d = .ok m ∧
      Disk.Apart (Disk.destination d.home "/repo".toList)
        (Disk.destination d.home "/./gone".toList) := by
  intro d m
  have hload : load "/m.toml".toList d = .ok m := by decide +kernel
  exact ⟨hload, load_apart hload (by decide : 0 ≠ 1) rfl rfl (.inl (by decide +kernel))
    (.inr (by decide +kernel)) (by decide +kernel)⟩

/-- One directory is accepted for two tasks. -/
theorem load_not_apart : ¬ ∀ path d m, load path d = .ok m →
    ∀ (i j : Nat) (t u : Task), i ≠ j → m.tasks[i]? = some t → m.tasks[j]? = some u →
      Disk.Apart (Disk.destination d.home t.workdir) (Disk.destination d.home u.workdir) := by
  intro h
  have hload : load "/m.toml".toList (sampleDisk "gone/../repo".toList)
      = .ok (sampleManifest "/gone/../repo".toList) := by
    decide +kernel
  exact (h _ _ _ hload 0 1 _ _ (by decide) rfl rfl).not_below (by decide)

end Manifest

end Mend
