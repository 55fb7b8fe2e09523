import Mend.Proofs.Store.Writes

/-!
# Paths of a store stay in its directory

A path is refused when it is absolute or has two points between its slashes, and for nothing else
(`DirectoryStore.resolve_eq`). Otherwise its pieces are names below the directory, the paths that
are read, listed and written have the parts of the directory in front, and nothing outside of the
directory is read or changed (`DirectoryStore.confines`).
-/

namespace Mend

namespace Path

/-- Pieces lead below their start unless one of them goes up. -/
theorem within?_filterMap_part? (pieces : List Text) : within? (pieces.filterMap part?)
    = if ['.', '.'] ∈ pieces then none
      else some (pieces.filter fun piece => piece ≠ [] ∧ piece ≠ ['.']) := by
  induction pieces with
  | nil => rfl
  | cons piece rest ih =>
    by_cases hskipped : piece = [] ∨ piece = ['.']
    · -- an empty piece or a point counts for nothing
      have hpart : part? piece = none := by rcases hskipped with rfl | rfl <;> rfl
      have hup : ['.', '.'] ≠ piece := by rcases hskipped with rfl | rfl <;> decide
      rw [List.filterMap_cons_none hpart, ih,
        List.filter_cons_of_neg (by simpa [or_iff_not_imp_left] using hskipped)]
      simp [hup]
    rw [not_or] at hskipped
    by_cases hup : piece = ['.', '.']
    · have hpart : part? piece = some .up := by rw [hup]; rfl
      rw [List.filterMap_cons_some hpart, within?, if_pos (by simp [hup])]
    · have hpart : part? piece = some (.name piece) := by simp [part?, hskipped, hup]
      rw [List.filterMap_cons_some hpart, within?, ih,
        List.filter_cons_of_pos (by simpa using hskipped)]
      by_cases hmem : ['.', '.'] ∈ rest
      · rw [if_pos hmem, if_pos (List.mem_cons_of_mem _ hmem)]
        rfl
      · rw [if_neg hmem, if_neg (by simp [hmem, Ne.symm hup])]
        rfl

/-- A path that is not absolute and does not go up leads below its start, by its pieces. -/
theorem within?_parts (path : Text) : within? (parts path)
    = if isAbsolute path = true ∨ ['.', '.'] ∈ path.splitOn slash then none
      else some ((path.splitOn slash).filter fun piece => piece ≠ [] ∧ piece ≠ ['.']) := by
  rw [parts]
  by_cases habsolute : isAbsolute path = true
  · rw [if_pos habsolute, if_pos (.inl habsolute)]
    rfl
  · rw [if_neg habsolute]
    have hpieces := within?_filterMap_part? (path.splitOn slash)
    simp only [habsolute, false_or, Bool.false_eq_true]
    split
    · -- a point at the start leads nowhere
      exact hpieces
    · exact hpieces

end Path

namespace DirectoryStore

variable {σ : DirectoryStore} {loc : Location} {path content : Text} {names rest : List Text}
  {d d' : Disk} {x : Except Failure Unit}

/-! ## Resolving -/

/-- A path without blanks around it and one point and slash in front. -/
def plain (path : Text) : Text := Text.dropPrefix ['.', '/'] path.trim

theorem resolve_eq (path : Text) : resolve path
    = if Path.isAbsolute (plain path) = true ∨ ['.', '.'] ∈ (plain path).splitOn Path.slash then
        .error (escapes (plain path))
      else
        .ok (((plain path).splitOn Path.slash).filter fun piece => piece ≠ [] ∧ piece ≠ ['.']) := by
  rw [resolve, ← plain, Path.within?_parts]
  split
  · rename_i hwithin
    split at hwithin
    · cases hwithin
    · rename_i hbelow
      rw [if_neg hbelow, Option.some.inj hwithin]
  · rename_i hwithin
    split at hwithin
    · rename_i hleaves
      rw [if_pos hleaves]
    · cases hwithin

/-! ## Places that a write touches -/

/-- The names, seen from the directory, that a write of a path touches. -/
inductive Touches (path : Text) : List Text → Prop
  /-- A directory on the way is made. -/
  | parent {front rest : List Text} {name : Text} (hresolve : resolve path = .ok (front ++ [name]))
    (hrest : rest <+: front) (hne : rest ≠ []) : Touches path rest
  /-- The hidden file is written and moved. -/
  | hidden {front : List Text} {name : Text} (hresolve : resolve path = .ok (front ++ [name])) :
    Touches path (front ++ [temporaryName name])
  /-- The file is replaced. -/
  | target {front : List Text} {name : Text} (hresolve : resolve path = .ok (front ++ [name])) :
    Touches path (front ++ [name])

theorem Touches.ne_nil (h : Touches path rest) : rest ≠ [] := by
  cases h with
  | parent hresolve hrest hne => exact hne
  | hidden hresolve => exact List.concat_ne_nil _ _
  | target hresolve => exact List.concat_ne_nil _ _

/-- What a write changes is where it touches the directory. -/
theorem Writes.touches (h : σ.Writes loc path content d x d') {place : Location}
    (hchanged : d'.node? place ≠ d.node? place) :
    ∃ rest, Touches path rest ∧ place = loc ++ rest := by
  have hparent : ∀ {front name d₁}, resolve path = .ok (front ++ [name]) →
      Disk.MakesBelow loc front d d₁ → d₁.node? place ≠ d.node? place →
      ∃ rest, Touches path rest ∧ place = loc ++ rest := by
    intro front name d₁ hresolve hmakes hchanged
    obtain ⟨-, -, rest, hne, hrest, hplace⟩ := (hmakes.node? place).resolve_left hchanged
    exact ⟨rest, .parent hresolve hrest hne, hplace⟩
  cases h with
  | refused hresolve => exact absurd rfl hchanged
  | itself hresolve => exact absurd rfl hchanged
  | stuck hresolve hmakes => exact hparent hresolve hmakes hchanged
  | @blocked f front name d₁ hresolve hmakes hhidden hblocked =>
    by_cases hplace : place = loc ++ front ++ [temporaryName name]
    · exact ⟨_, .hidden hresolve, hplace.trans (List.append_assoc ..)⟩
    · rw [Disk.node?_put_ne _ hplace] at hchanged
      exact hparent hresolve hmakes hchanged
  | @done front name d₁ _ hresolve hmakes hhidden hfree hdisk hfind =>
    subst hdisk
    by_cases hplace : place = loc ++ front ++ [name]
    · exact ⟨_, .target hresolve, hplace.trans (List.append_assoc ..)⟩
    by_cases hplace' : place = loc ++ front ++ [temporaryName name]
    · exact ⟨_, .hidden hresolve, hplace'.trans (List.append_assoc ..)⟩
    · rw [Disk.node?_put_ne _ hplace, Disk.node?_remove_ne hplace',
        Disk.node?_put_ne _ hplace'] at hchanged
      exact hparent hresolve hmakes hchanged

/-! ## Confinement -/

/-- A path stays in the directory, whatever is asked of the store with it. -/
structure Confines (σ : DirectoryStore) (loc : Location) (d : Disk) (path : Text) : Prop where
  /-- A path is refused when it is absolute or goes up, and only then. -/
  refused : (∃ f, resolve path = .error f) ↔
    Path.isAbsolute (plain path) = true ∨ ['.', '.'] ∈ (plain path).splitOn Path.slash
  /-- Another path has the parts of the directory, and its own pieces as names behind them. -/
  parts : ∀ names, resolve path = .ok names →
    names = ((plain path).splitOn Path.slash).filter (fun piece => piece ≠ [] ∧ piece ≠ ['.']) ∧
      (∀ name ∈ names, Path.IsName name) ∧
      Path.parts (σ.fullPath names) = Path.parts σ.root ++ names.map .name
  /-- So have the path above, which is made for a write, and that of the hidden file. -/
  writeParts : ∀ front name, resolve path = .ok (front ++ [name]) →
    ∃ above, Path.parent? (σ.fullPath (front ++ [name])) = some above ∧
      Path.parts above = Path.parts σ.root ++ front.map .name ∧
      Path.parts (Path.join above (temporaryName name))
        = Path.parts σ.root ++ (front ++ [temporaryName name]).map .name
  /-- What is read and listed is read off the directory. -/
  reads : ∀ d', Disk.Agree σ.root loc d d' → σ.read path d' = σ.read path d ∧
    ∀ depth, σ.list path depth d' = σ.list path depth d
  /-- A write is answered from the directory, changes places below it only, and leaves the directory
  there. -/
  writes : ∀ content, ∃ x m, σ.write path content d = (x, m) ∧
    (∀ d', Disk.Agree σ.root loc d d' → ∃ m', σ.write path content d' = (x, m') ∧
      Disk.Agree σ.root loc m m') ∧
    Disk.Confined loc d m ∧ m.find σ.root = .ok (loc, .dir) ∧
    ∀ place, m.node? place ≠ d.node? place →
      ∃ rest, rest ≠ [] ∧ Touches path rest ∧ place = loc ++ rest
  /-- The directory itself is not written. -/
  itself : resolve path = .ok [] → ∀ content, σ.write path content d
    = (.error (.ofText "cannot write to the working directory itself".toList), d)

/-- Every path stays in the directory of its store. -/
theorem confines (hroot : d.find σ.root = .ok (loc, .dir)) (path : Text) :
    σ.Confines loc d path where
  refused := by
    rw [resolve_eq]
    split
    · rename_i hleaves
      exact ⟨fun _ => hleaves, fun _ => ⟨_, rfl⟩⟩
    · rename_i hbelow
      exact ⟨nofun, fun hleaves => absurd hleaves hbelow⟩
  parts names hresolve := by
    have hnames := isName_of_resolve hresolve
    refine ⟨?_, hnames, Path.parts_foldl_join hnames σ.root⟩
    rw [resolve_eq] at hresolve
    split at hresolve
    · cases hresolve
    · exact (Except.ok.inj hresolve).symm
  writeParts front name hresolve := by
    have hnames := isName_of_resolve hresolve
    rw [List.forall_mem_append, List.forall_mem_singleton] at hnames
    -- points at the end of the path above are no parts
    obtain ⟨above, habove, hshort⟩ := σ.exists_parent?_fullPath front hnames.2
    have hparts : Path.parts above = Path.parts σ.root ++ front.map .name :=
      hshort.parts.trans (Path.parts_foldl_join hnames.1 σ.root)
    refine ⟨above, habove, hparts, ?_⟩
    rw [(isName_temporaryName hnames.2).parts_join, hparts, List.map_append, List.append_assoc]
    rfl
  reads d' hagree := ⟨read_eq hagree path, list_eq hagree path⟩
  writes content := by
    -- the disk agrees with itself, which gives what a write keeps
    obtain ⟨x, m, _, hwrite, -, hmoved⟩ := write_agree (.refl hroot) path content
    refine ⟨x, m, hwrite, fun d' hagree => ?_, hmoved.confined, hmoved.agree.found,
      fun place hchanged => ?_⟩
    · obtain ⟨x', m₁, m', hwrite₁, hwrite', hmoved'⟩ := write_agree hagree path content
      obtain ⟨rfl, rfl⟩ := Prod.mk.inj (hwrite.symm.trans hwrite₁)
      exact ⟨m', hwrite', hmoved'.agree⟩
    · obtain ⟨rest, htouches, hplace⟩ := (write_writes hroot hwrite).touches hchanged
      exact ⟨rest, htouches.ne_nil, htouches, hplace⟩
  itself hresolve content := by
    rw [write, hresolve]
    rfl

theorem confines_sample :
    let σ : DirectoryStore := ⟨"/w/.".toList, 100⟩
    sampleTree.find σ.root = .ok ([['w']], .dir) ∧
      σ.Confines [['w']] sampleTree " ./d//./g ".toList := by
  intro σ
  have hroot : sampleTree.find σ.root = .ok ([['w']], .dir) := by decide +kernel
  exact ⟨hroot, confines hroot " ./d//./g ".toList⟩

end DirectoryStore

end Mend
