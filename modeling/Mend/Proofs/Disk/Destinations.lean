import Mend.Disk

/-!
# Destinations

Where a path leads does not depend on what stands on the disk (`Disk.destination`): a walk that
succeeds ends there, and it still succeeds when there are more directories. So what an operation
does can be said with the places that it touches: `Disk.Keeps` says that the other files and all
directories stay, and what is read under a path is kept when its destination is not touched
(`Disk.Keeps.readText`).
-/

namespace Mend

/-- The names and points of a path. -/
def Path.pieces (path : Text) : List Text :=
  (path.splitOn slash).filter fun piece => !piece.isEmpty

namespace Disk

/-! ## Where paths lead -/

/-- Where pieces of a path lead from a place, if everything on the way is a directory. -/
def destinationFrom (loc : Location) : List Text → Location
  | [] => loc
  | piece :: rest =>
    if piece = ['.'] then destinationFrom loc rest
    else if piece = ['.', '.'] then destinationFrom loc.dropLast rest
    else destinationFrom (loc ++ [piece]) rest

/-- Where a path leads, if everything on the way is a directory. -/
def destination (home : Location) (path : Text) : Location :=
  destinationFrom (if Path.isAbsolute path then [] else home) (Path.pieces path)

theorem destinationFrom_append (loc : Location) (pieces more : List Text) :
    destinationFrom loc (pieces ++ more) = destinationFrom (destinationFrom loc pieces) more := by
  induction pieces generalizing loc with
  | nil => rfl
  | cons piece rest ih =>
    rw [List.cons_append, destinationFrom, destinationFrom]
    split
    · exact ih loc
    split
    · exact ih loc.dropLast
    · exact ih (loc ++ [piece])

theorem destinationFrom_of_walkFrom {d : Disk} {loc dest : Location} {pieces : List Text}
    (h : d.walkFrom loc pieces = .ok dest) : dest = destinationFrom loc pieces := by
  induction pieces generalizing loc with
  | nil => exact (Except.ok.inj h).symm
  | cons piece rest ih =>
    rw [walkFrom] at h
    rw [destinationFrom]
    split at h
    · cases h
    · cases h
    split at h
    · rename_i hpoint
      rw [if_pos hpoint]
      exact ih h
    rename_i hpoint
    rw [if_neg hpoint]
    split at h
    · rename_i hup
      rw [if_pos hup]
      exact ih h
    rename_i hup
    rw [if_neg hup]
    split at h
    · cases h
    · exact ih h

/-- A walk ends at the destination of the path. -/
theorem destination_of_walk {d : Disk} {path : Text} {loc : Location} (h : d.walk path = .ok loc) :
    loc = destination d.home path := by
  rw [walk] at h
  split at h
  · cases h
  split at h
  · cases h
  split at h
  · cases h
  -- a point for a slash at the end leads nowhere else
  rw [destinationFrom_of_walkFrom h]
  by_cases hslash : path.getLast? = some Path.slash
  · rw [if_pos hslash, destinationFrom_append]
    rfl
  · rw [if_neg hslash]
    rfl

/-! ## What operations keep -/

/-- Nothing stands at a place that was cleared. -/
theorem node?_remove_self (d : Disk) (loc : Location) : (d.remove loc).node? loc = none := by
  rw [remove, node?, List.lookup_eq_none_iff]
  intro e he
  have hne : e.1 ≠ loc := by simpa using (List.mem_filter.1 he).2
  simpa using hne.symm

/-- All directories stay, and so do the files that are not at the touched places. -/
structure Keeps (touched : Location → Prop) (d d' : Disk) : Prop where
  home : d'.home = d.home
  dirs : ∀ loc, d.node? loc = some .dir → d'.node? loc = some .dir
  files : ∀ loc data, ¬ touched loc → d.node? loc = some (.file data) →
    d'.node? loc = some (.file data)

namespace Keeps

variable {touched more : Location → Prop} {d d' d'' : Disk}

theorem refl (d : Disk) : Keeps touched d d := ⟨rfl, fun _ => id, fun _ _ _ => id⟩

theorem trans (h : Keeps touched d d') (h' : Keeps touched d' d'') : Keeps touched d d'' where
  home := h'.home.trans h.home
  dirs loc hdir := h'.dirs loc (h.dirs loc hdir)
  files loc data hloc hfile := h'.files loc data hloc (h.files loc data hloc hfile)

theorem mono (h : Keeps touched d d') (hmore : ∀ loc, touched loc → more loc) :
    Keeps more d d' where
  home := h.home
  dirs := h.dirs
  files loc data hloc := h.files loc data fun htouched => hloc (hmore loc htouched)

/-- A file is put where no directory stands. -/
theorem put {loc : Location} {node : DiskNode} (hloc : d.node? loc ≠ some .dir) :
    Keeps (· = loc) d (d.put loc node) where
  home := rfl
  dirs other hdir := by
    have hne : other ≠ loc := fun heq => hloc (heq ▸ hdir)
    rw [node?_put_ne node hne]
    exact hdir
  files other data hne hfile := by
    rw [node?_put_ne node hne]
    exact hfile

/-- What is removed is no directory. -/
theorem remove {loc : Location} (hloc : d.node? loc ≠ some .dir) :
    Keeps (· = loc) d (d.remove loc) where
  home := rfl
  dirs other hdir := by
    have hne : other ≠ loc := fun heq => hloc (heq ▸ hdir)
    rw [node?_remove_ne hne]
    exact hdir
  files other data hne hfile := by
    rw [node?_remove_ne hne]
    exact hfile

theorem walkFrom (h : Keeps touched d d') {loc dest : Location} {pieces : List Text}
    (hwalk : d.walkFrom loc pieces = .ok dest) : d'.walkFrom loc pieces = .ok dest := by
  induction pieces generalizing loc with
  | nil => exact hwalk
  | cons piece rest ih =>
    rw [Disk.walkFrom] at hwalk ⊢
    split at hwalk
    · cases hwalk
    · cases hwalk
    rename_i hdir
    rw [h.dirs loc hdir]
    dsimp only
    split at hwalk
    · rename_i hpoint
      rw [if_pos hpoint]
      exact ih hwalk
    rename_i hpoint
    rw [if_neg hpoint]
    split at hwalk
    · rename_i hup
      rw [if_pos hup]
      exact ih hwalk
    rename_i hup
    rw [if_neg hup]
    split at hwalk
    · cases hwalk
    rename_i hlong
    rw [if_neg hlong]
    exact ih hwalk

/-- A walk that succeeds goes on to succeed. -/
theorem walk (h : Keeps touched d d') {path : Text} {loc : Location}
    (hwalk : d.walk path = .ok loc) : d'.walk path = .ok loc := by
  rw [Disk.walk] at hwalk ⊢
  rw [h.home]
  split at hwalk
  · cases hwalk
  rename_i hnul
  rw [if_neg hnul]
  split at hwalk
  · cases hwalk
  rename_i hempty
  rw [if_neg hempty]
  split at hwalk
  · cases hwalk
  rename_i hlong
  rw [if_neg hlong]
  exact h.walkFrom hwalk

end Keeps

/-! ## Reading -/

/-- A text is read where a file with its bytes stands. -/
theorem readText_eq_ok {d : Disk} {path t : Text} : d.readText path = .ok t ↔
    ∃ loc data, d.walk path = .ok loc ∧ d.node? loc = some (.file data) ∧
      Text.ofBytes? data = some t := by
  rw [readText, readBytes, find]
  constructor
  · intro h
    cases hwalk : d.walk path with
    | error e =>
      rw [hwalk] at h
      cases h
    | ok loc =>
      rw [hwalk] at h
      dsimp only at h
      rcases hnode : d.node? loc with _ | data | _
      · rw [hnode] at h
        cases h
      · rw [hnode] at h
        dsimp only at h
        cases htext : Text.ofBytes? data with
        | none =>
          rw [htext] at h
          cases h
        | some t' =>
          rw [htext] at h
          cases h
          exact ⟨loc, data, rfl, hnode, htext⟩
      · rw [hnode] at h
        cases h
  · rintro ⟨loc, data, hwalk, hnode, htext⟩
    rw [hwalk]
    dsimp only
    rw [hnode]
    dsimp only
    rw [htext]

/-- What is not touched is read as before. -/
theorem Keeps.readText {touched : Location → Prop} {d d' : Disk} (h : Keeps touched d d')
    {path t : Text} (hdest : ¬ touched (destination d.home path))
    (hread : d.readText path = .ok t) : d'.readText path = .ok t := by
  obtain ⟨loc, data, hwalk, hnode, htext⟩ := readText_eq_ok.1 hread
  rw [destination_of_walk hwalk] at hnode
  have hwalk' := h.walk hwalk
  rw [destination_of_walk hwalk] at hwalk'
  exact readText_eq_ok.2 ⟨_, data, hwalk', h.files _ data hdest hnode, htext⟩

/-! ## Writing -/

variable {d d' : Disk}

/-- A file is written where its path leads and nowhere else. -/
theorem writeBytes_spec {path : Text} {data : ByteArray} (h : d.writeBytes path data = .ok d') :
    ∃ loc, d.walk (Path.trimRight path) = .ok loc ∧ Keeps (· = loc) d d' ∧
      d'.node? loc = some (.file data) := by
  rw [writeBytes] at h
  cases hwalk : d.walk (Path.trimRight path) with
  | error e =>
    rw [hwalk] at h
    cases h
  | ok loc =>
    rw [hwalk] at h
    dsimp only at h
    split at h
    · cases h
    split at h
    · cases h
    rename_i hdir
    cases h
    exact ⟨loc, rfl, .put hdir, node?_put_self ..⟩

/-- A directory is made where nothing stands. -/
theorem makeDir_keeps {path : Text} (h : d.makeDir path = .ok d') :
    Keeps (fun _ => False) d d' := by
  rw [makeDir] at h
  cases hwalk : d.walk (Path.trimRight path) with
  | error e =>
    rw [hwalk] at h
    cases h
  | ok loc =>
    rw [hwalk] at h
    dsimp only at h
    cases hnode : d.node? loc with
    | some node =>
      rw [hnode] at h
      cases h
    | none =>
      rw [hnode] at h
      cases h
      -- what stood somewhere stands elsewhere than at the new directory
      have hne : ∀ {other node}, d.node? other = some node → other ≠ loc := by
        rintro other node hother rfl
        rw [hnode] at hother
        cases hother
      exact ⟨rfl, fun other hother => (node?_put_ne _ (hne hother)).trans hother,
        fun other data _ hother => (node?_put_ne _ (hne hother)).trans hother⟩

/-- A relation between the disks before and after the directories of a path are made, when they are
made one after the other, those of the path above first. -/
structure RelatesMaking (R : Text → Disk → Disk → Prop) : Prop where
  refl : ∀ path d, R path d d
  make : ∀ {path d d'}, d.makeDir path = .ok d' → R path d d'
  above : ∀ {path above d d'}, Path.parent? path = some above → R above d d' → R path d d'
  trans : ∀ {path d d' d''}, R path d d' → R path d' d'' → R path d d''

namespace RelatesMaking

variable {R : Text → Disk → Disk → Prop} {path : Text}

theorem makeDirsFrom (hR : RelatesMaking R) {fuel : Nat} {x : Except DiskError Disk}
    (h : makeDirsFrom fuel d path = (x, d')) : R path d d' := by
  induction fuel generalizing d path x d' with
  | zero =>
    cases h
    exact hR.refl ..
  | succ fuel ih =>
    rw [Disk.makeDirsFrom] at h
    split at h
    · cases h
      exact hR.refl ..
    split at h
    · rename_i made hmake
      cases h
      exact hR.make hmake
    · -- the parent is made first
      split at h
      · cases h
        exact hR.refl ..
      · rename_i above habove
        rcases hfirst : Disk.makeDirsFrom fuel d above with ⟨e | made, d₁⟩
        · rw [hfirst] at h
          cases h
          exact hR.above habove (ih hfirst)
        · rw [hfirst] at h
          dsimp only at h
          have hmade := hR.above habove (ih hfirst)
          split at h
          · rename_i made' hmake
            cases h
            exact hR.trans hmade (hR.make hmake)
          · split at h
            · cases h
              exact hmade
            · cases h
              exact hmade
    · split at h
      · cases h
        exact hR.refl ..
      · cases h
        exact hR.refl ..

theorem makeDirs (hR : RelatesMaking R) {x : Except DiskError Unit}
    (h : d.makeDirs path = (x, d')) : R path d d' := by
  rw [Disk.makeDirs] at h
  rcases hmake : Disk.makeDirsFrom (path.length + 1) d path with ⟨e | made, d₁⟩
  · rw [hmake] at h
    cases h
    exact hR.makeDirsFrom hmake
  · rw [hmake] at h
    cases h
    exact hR.makeDirsFrom hmake

end RelatesMaking

theorem makeDirs_keeps {path : Text} {x : Except DiskError Unit}
    (h : d.makeDirs path = (x, d')) : Keeps (fun _ => False) d d' := by
  have hkeeps : RelatesMaking fun _ => Keeps (fun _ => False) :=
    ⟨fun _ => .refl, makeDir_keeps, fun _ => id, .trans⟩
  exact hkeeps.makeDirs h

/-- A file is moved from where one path leads to where another does. -/
theorem rename_spec {source target : Text} {loc : Location} {data : ByteArray}
    (hsource : d.walk source = .ok loc) (hdata : d.node? loc = some (.file data))
    (h : d.rename source target = .ok d') :
    ∃ dest, d.walk (Path.trimRight target) = .ok dest ∧
      Keeps (fun l => l = loc ∨ l = dest) d d' ∧ d'.node? dest = some (.file data) := by
  have hfind : d.find source = .ok (loc, .file data) := by
    rw [find, hsource]
    dsimp only
    rw [hdata]
  rw [rename, hfind] at h
  cases hwalk : d.walk (Path.trimRight target) with
  | error e =>
    rw [hwalk] at h
    cases h
  | ok dest =>
    rw [hwalk] at h
    dsimp only at h
    split at h
    · cases h
    split at h
    · cases h
    rename_i hdir
    cases h
    have hfile : d.node? loc ≠ some .dir := by
      rw [hdata]
      nofun
    have hremove : Keeps (fun l => l = loc ∨ l = dest) d (d.remove loc) :=
      (Keeps.remove hfile).mono fun l => .inl
    have hdir' : (d.remove loc).node? dest ≠ some .dir := by
      by_cases heq : dest = loc
      · rw [heq, node?_remove_self]
        nofun
      · rw [node?_remove_ne heq]
        exact hdir
    exact ⟨dest, rfl, hremove.trans ((Keeps.put hdir').mono fun l => .inr), node?_put_self ..⟩

end Disk

end Mend
