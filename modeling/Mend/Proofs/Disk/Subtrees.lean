import Mend.Proofs.Path.Above

/-!
# Subtrees

What an operation does at or below a place leaves the rest of the disk alone (`Disk.Confined`). A
path whose way leads along a directory and then stays in it (`Disk.Within`) tells two disks apart
only when they differ there: on disks that agree on the directory (`Disk.Agree`), walks and searches
find the same, and directories are made, files are written and files are moved in the same way
(`Disk.Agree.makeDirs`, `Disk.Agree.writeBytes`, `Disk.Agree.rename`).
-/

namespace Mend

variable {α β : Type} [BEq α] [LawfulBEq α]

/-- Entries that are left out do not matter for a key that is kept. -/
theorem lookup_filter_of_pos {p : α → Bool} {key : α} (h : p key = true)
    (entries : List (α × β)) :
    (entries.filter fun e => p e.1).lookup key = entries.lookup key := by
  induction entries with
  | nil => rfl
  | cons e rest ih =>
    obtain ⟨k, b⟩ := e
    cases hk : p k with
    | true =>
      rw [List.filter_cons_of_pos (by simpa using hk), List.lookup_cons, List.lookup_cons, ih]
    | false =>
      have hne : key ≠ k := by
        rintro rfl
        exact Bool.false_ne_true (hk.symm.trans h)
      rw [List.filter_cons_of_neg (by simpa using hk), lookup_cons_ne hne, ih]

namespace Disk

/-- Neither of two places is at or below the other. -/
structure Apart (loc other : Location) : Prop where
  not_below : ¬ loc <+: other
  not_above : ¬ other <+: loc

theorem Apart.symm {loc other : Location} (h : Apart loc other) : Apart other loc :=
  ⟨h.not_above, h.not_below⟩

/-- Nothing is below two places that are apart. -/
theorem Apart.not_prefix {loc other place : Location} (h : Apart loc other)
    (hplace : other <+: place) : ¬ loc <+: place := fun hloc =>
  (List.prefix_or_prefix_of_prefix hloc hplace).elim h.not_below h.not_above

/-- What stands at or below a place. -/
def subtree (d : Disk) (loc : Location) : List (Location × DiskNode) :=
  d.entries.filter fun e => loc.isPrefixOf e.1

/-- What stands elsewhere. -/
def outside (d : Disk) (loc : Location) : List (Location × DiskNode) :=
  d.entries.filter fun e => !loc.isPrefixOf e.1

/-- The name and the node that an entry gives its directory. -/
def child? (place : Location) (e : Location × DiskNode) : Option (Text × DiskNode) :=
  match e.1.getLast? with
  | some name => if e.1.dropLast = place then some (name, e.2) else none
  | none => none

theorem children_eq (d : Disk) (place : Location) : d.children place
    = (d.entries.filterMap (child? place)).mergeSort fun a b => Text.le a.1 b.1 := rfl

section Subtree

variable {d d' : Disk} {loc place : Location}

theorem node?_of_subtree (h : d'.subtree loc = d.subtree loc) (hplace : loc <+: place) :
    d'.node? place = d.node? place := by
  have hpos : loc.isPrefixOf place = true := List.isPrefixOf_iff_prefix.2 hplace
  rw [node?, ← lookup_filter_of_pos (p := fun l => loc.isPrefixOf l) hpos, ← subtree, h, subtree,
    lookup_filter_of_pos (p := fun l => loc.isPrefixOf l) hpos, node?]

theorem node?_of_outside (h : d'.outside loc = d.outside loc) (hplace : ¬ loc <+: place) :
    d'.node? place = d.node? place := by
  have hpos : (!loc.isPrefixOf place) = true := by
    simpa [← List.isPrefixOf_iff_prefix] using hplace
  rw [node?, ← lookup_filter_of_pos (p := fun l => !loc.isPrefixOf l) hpos, ← outside, h, outside,
    lookup_filter_of_pos (p := fun l => !loc.isPrefixOf l) hpos, node?]

/-- The names in a directory are read off what stands below it. -/
theorem filterMap_child?_subtree (d : Disk) (hplace : loc <+: place) :
    (d.subtree loc).filterMap (child? place) = d.entries.filterMap (child? place) := by
  rw [subtree, List.filterMap_filter]
  congr 1
  funext e
  by_cases hbelow : loc.isPrefixOf e.1 = true
  · rw [if_pos hbelow]
  · -- what stands elsewhere is in another directory
    rw [if_neg hbelow, child?]
    split
    · rw [if_neg]
      rintro rfl
      exact hbelow (List.isPrefixOf_iff_prefix.2 (hplace.trans (List.dropLast_prefix _)))
    · rfl

theorem children_of_subtree (h : d'.subtree loc = d.subtree loc) (hplace : loc <+: place) :
    d'.children place = d.children place := by
  rw [children_eq, children_eq, ← filterMap_child?_subtree d' hplace,
    ← filterMap_child?_subtree d hplace, h]

theorem subtree_remove (q : Location) :
    (d.remove q).subtree loc = (d.subtree loc).filter fun e => e.1 ≠ q := by
  rw [subtree, subtree, remove, List.filter_filter, List.filter_filter]
  simp only [Bool.and_comm]

theorem subtree_put (q : Location) (node : DiskNode) : (d.put q node).subtree loc =
    if loc.isPrefixOf q then (q, node) :: (d.remove q).subtree loc
    else (d.remove q).subtree loc := by
  rw [subtree, put, List.filter_cons]
  rfl

theorem outside_remove {q : Location} (hq : loc <+: q) :
    (d.remove q).outside loc = d.outside loc := by
  rw [outside, outside, remove, List.filter_filter]
  refine List.filter_congr fun e _ => ?_
  by_cases heq : e.1 = q
  · have hpos : loc.isPrefixOf e.1 = true := List.isPrefixOf_iff_prefix.2 (heq ▸ hq)
    rw [hpos]
    rfl
  · simp [heq]

theorem outside_put {q : Location} (hq : loc <+: q) (node : DiskNode) :
    (d.put q node).outside loc = d.outside loc := by
  have hpos : loc.isPrefixOf q = true := List.isPrefixOf_iff_prefix.2 hq
  rw [outside, put, List.filter_cons_of_neg (by simp [hpos])]
  exact outside_remove hq

end Subtree

/-! ## Changes at or below a place -/

/-- Nothing changes elsewhere, and all directories stay. -/
structure Confined (loc : Location) (d d' : Disk) : Prop where
  home : d'.home = d.home
  dirs : ∀ place, d.node? place = some .dir → d'.node? place = some .dir
  outside : d'.outside loc = d.outside loc

namespace Confined

variable {loc other place : Location} {d d' d'' : Disk} {root : Text}

theorem refl (loc : Location) (d : Disk) : Confined loc d d := ⟨rfl, fun _ => id, rfl⟩

theorem trans (h : Confined loc d d') (h' : Confined loc d' d'') : Confined loc d d'' where
  home := h'.home.trans h.home
  dirs place hdir := h'.dirs place (h.dirs place hdir)
  outside := h'.outside.trans h.outside

theorem put (hplace : loc <+: place) (hdir : d.node? place ≠ some .dir) (node : DiskNode) :
    Confined loc d (d.put place node) where
  home := rfl
  dirs := (Keeps.put hdir).dirs
  outside := outside_put hplace node

theorem remove (hplace : loc <+: place) (hdir : d.node? place ≠ some .dir) :
    Confined loc d (d.remove place) where
  home := rfl
  dirs := (Keeps.remove hdir).dirs
  outside := outside_remove hplace

theorem keeps (h : Confined loc d d') : Keeps (loc <+: ·) d d' where
  home := h.home
  dirs := h.dirs
  files _ _ hplace hfile := (node?_of_outside h.outside hplace).trans hfile

/-- A directory elsewhere is as it was. -/
theorem subtree (h : Confined loc d d') (hapart : Apart loc other) :
    d'.subtree other = d.subtree other := by
  have hsubtree : ∀ d : Disk, (d.outside loc).filter (fun e => other.isPrefixOf e.1)
      = d.subtree other := by
    intro d
    rw [Disk.outside, List.filter_filter, Disk.subtree]
    refine List.filter_congr fun e _ => ?_
    cases hother : other.isPrefixOf e.1 with
    | false => rfl
    | true =>
      have hloc := hapart.not_prefix (List.isPrefixOf_iff_prefix.1 hother)
      simpa [← List.isPrefixOf_iff_prefix] using hloc
  rw [← hsubtree d', h.outside, hsubtree]

end Confined

/-- A path is found where a walk ends and something stands. -/
theorem find_eq_ok {d : Disk} {path : Text} {loc : Location} {node : DiskNode} :
    d.find path = .ok (loc, node) ↔ d.walk path = .ok loc ∧ d.node? loc = some node := by
  rw [find]
  cases hwalk : d.walk path with
  | error e => simp
  | ok dest =>
    dsimp only
    constructor
    · intro h
      split at h
      · cases h
      · rename_i hnode
        cases h
        exact ⟨rfl, hnode⟩
    · rintro ⟨hdest, hnode⟩
      rw [Except.ok.inj hdest, hnode]

/-- A directory is still found. -/
theorem Keeps.find {touched : Location → Prop} {d d' : Disk} {path : Text} {loc : Location}
    (h : Keeps touched d d') (hfound : d.find path = .ok (loc, .dir)) :
    d'.find path = .ok (loc, .dir) := by
  obtain ⟨hwalk, hnode⟩ := find_eq_ok.1 hfound
  exact find_eq_ok.2 ⟨h.walk hwalk, h.dirs loc hnode⟩

/-! ## Paths that stay in a directory -/

/-- Where the pieces of a path start. -/
def start (home : Location) (path : Text) : Location :=
  if Path.isAbsolute path then [] else home

/-- The pieces that are walked for a path: a slash at its end asks for a directory. -/
def steps (path : Text) : List Text :=
  if path.getLast? = some Path.slash then Path.pieces path ++ [['.']] else Path.pieces path

/-- Why a path is not walked at all. -/
def refusal? (path : Text) : Option DiskError :=
  if path.any (fun c => c.toNat = 0) then some .nulInPath
  else if path.isEmpty then some .notFound
  else if longestPath < path.byteLength then some .nameTooLong
  else none

theorem walk_eq (d : Disk) (path : Text) : d.walk path =
    match refusal? path with
    | some e => .error e
    | none => d.walkFrom (start d.home path) (steps path) := by
  rw [walk, refusal?]
  split
  · rfl
  split
  · rfl
  split
  · rfl
  · rfl

/-- What leads to the end of a walk are directories. -/
theorem dirs_of_walkFrom {d : Disk} {loc dest : Location} {pieces : List Text}
    (h : d.walkFrom loc pieces = .ok dest) {front : List Text} (hfront : front <+: pieces)
    (hne : front ≠ pieces) : d.node? (destinationFrom loc front) = some .dir := by
  induction pieces generalizing loc front with
  | nil => exact absurd (List.prefix_nil.1 hfront) hne
  | cons piece rest ih =>
    rw [walkFrom] at h
    split at h
    · cases h
    · cases h
    rename_i hdir
    cases front with
    | nil => exact hdir
    | cons first front =>
      obtain ⟨rfl, hrest⟩ := List.cons_prefix_cons.1 hfront
      have hne' : front ≠ rest := fun heq => hne (by rw [heq])
      rw [destinationFrom]
      split at h
      · rename_i hpoint
        rw [if_pos hpoint]
        exact ih h hrest hne'
      rename_i hpoint
      rw [if_neg hpoint]
      split at h
      · rename_i hup
        rw [if_pos hup]
        exact ih h hrest hne'
      rename_i hup
      rw [if_neg hup]
      split at h
      · cases h
      · exact ih h hrest hne'

/-- So are the places on the way of a path that is walked. -/
theorem dirs_of_walk {d : Disk} {path : Text} {loc : Location} (h : d.walk path = .ok loc)
    {front : List Text} (hfront : front <+: Path.pieces path) (hne : front ≠ Path.pieces path) :
    d.node? (destinationFrom (start d.home path) front) = some .dir := by
  rw [walk_eq] at h
  split at h
  · cases h
  rw [steps] at h
  split at h
  · refine dirs_of_walkFrom h (hfront.trans (List.prefix_append ..)) fun heq => hne ?_
    -- more than all pieces is no part of them
    exact hfront.eq_of_length_le (by rw [heq, List.length_append]; omega)
  · exact dirs_of_walkFrom h hfront hne

/-- Everything on the way of a path is a directory, and it leads to one. -/
def Leads (d : Disk) (path : Text) : Prop :=
  ∀ front, front <+: Path.pieces path →
    d.node? (destinationFrom (start d.home path) front) = some .dir

theorem leads_of_find {d : Disk} {path : Text} {loc : Location}
    (h : d.find path = .ok (loc, .dir)) : d.Leads path := by
  obtain ⟨hwalk, hnode⟩ := find_eq_ok.1 h
  intro front hfront
  by_cases heq : front = Path.pieces path
  · have hdest : destinationFrom (start d.home path) (Path.pieces path) = loc :=
      (destination_of_walk hwalk).symm
    rw [heq, hdest]
    exact hnode
  · exact dirs_of_walk hwalk hfront heq

/-- A walk depends on what stands on the way. -/
theorem walkFrom_congr {d d' : Disk} {loc : Location} {pieces : List Text}
    (h : ∀ front, front <+: pieces →
      d'.node? (destinationFrom loc front) = d.node? (destinationFrom loc front)) :
    d'.walkFrom loc pieces = d.walkFrom loc pieces := by
  induction pieces generalizing loc with
  | nil => rfl
  | cons piece rest ih =>
    have hfirst : d'.node? loc = d.node? loc := h [] List.nil_prefix
    have hrest : ∀ next,
        (∀ front, destinationFrom loc (piece :: front) = destinationFrom next front) →
        d'.walkFrom next rest = d.walkFrom next rest := by
      intro next hnext
      refine ih fun front hfront => ?_
      rw [← hnext]
      exact h (piece :: front) (List.cons_prefix_cons.2 ⟨rfl, hfront⟩)
    rw [walkFrom, walkFrom, hfirst]
    split
    · rfl
    · rfl
    split
    · rename_i hpoint
      exact hrest loc fun front => by rw [destinationFrom, if_pos hpoint]
    rename_i hpoint
    split
    · rename_i hup
      exact hrest _ fun front => by rw [destinationFrom, if_neg hpoint, if_pos hup]
    rename_i hup
    split
    · rfl
    · exact hrest _ fun front => by rw [destinationFrom, if_neg hpoint, if_neg hup]

/-- A path whose way leads along that of a directory, or stays in it. -/
structure Within (home : Location) (root : Text) (loc : Location) (path : Text) : Prop where
  isAbsolute : Path.isAbsolute path = Path.isAbsolute root
  places : ∀ front, front <+: Path.pieces path →
    front <+: Path.pieces root ∨ loc <+: destinationFrom (start home root) front

namespace Within

variable {home loc : Location} {root path other : Text}

theorem along (h : Within home root loc path) (halong : Path.Along other path) :
    Within home root loc other where
  isAbsolute := halong.isAbsolute.trans h.isAbsolute
  places front hfront := h.places front (hfront.trans halong.pieces)

theorem start_eq (h : Within home root loc path) : start home path = start home root := by
  rw [start, start, h.isAbsolute]

/-- A name in a directory that is at or below the place stays there. -/
theorem join (h : Within home root loc path) (hloc : loc <+: destination home path) {name : Text}
    (hname : Path.IsName name) : Within home root loc (Path.join path name) where
  isAbsolute := (hname.isAbsolute_join path).trans h.isAbsolute
  places front hfront := by
    rw [hname.pieces_join] at hfront
    rcases List.prefix_concat_iff.1 hfront with rfl | hfront
    · have hdest : destinationFrom (start home root) (Path.pieces path)
          = destination home path := by
        rw [← h.start_eq]
        rfl
      rw [destinationFrom_append, hdest, destinationFrom, if_neg hname.ne_current,
        if_neg hname.ne_up]
      exact .inr (hloc.trans (List.prefix_append ..))
    · exact h.places front hfront

end Within

/-! ## Disks that agree on a directory -/

/-- Two disks with the same directory at a path. -/
structure Agree (root : Text) (loc : Location) (d d' : Disk) : Prop where
  home : d'.home = d.home
  subtree : d'.subtree loc = d.subtree loc
  found : d.find root = .ok (loc, .dir)
  found' : d'.find root = .ok (loc, .dir)

/-- Two disks that were changed alike, in the directory only. -/
structure Moved (root : Text) (loc : Location) (d m m' : Disk) : Prop where
  agree : Agree root loc m m'
  confined : Confined loc d m

theorem Moved.trans {root : Text} {loc : Location} {d m m' n n' : Disk}
    (h : Moved root loc d m m') (h' : Moved root loc m n n') : Moved root loc d n n' :=
  ⟨h'.agree, h.confined.trans h'.confined⟩

namespace Agree

variable {root path : Text} {loc place : Location} {d d' : Disk}

theorem refl (h : d.find root = .ok (loc, .dir)) : Agree root loc d d := ⟨rfl, rfl, h, h⟩

theorem moved (h : Agree root loc d d') : Moved root loc d d d' := ⟨h, .refl loc d⟩

/-- What changes elsewhere does not matter. -/
theorem of_confined {other : Location} {m : Disk} (h : Agree root loc d d')
    (hconfined : Confined other d m) (hapart : Apart other loc) : Agree root loc m d' where
  home := h.home.trans hconfined.home.symm
  subtree := h.subtree.trans (hconfined.subtree hapart).symm
  found := hconfined.keeps.find h.found
  found' := h.found'

/-! ### Reading -/

/-- The places on the way of a path are directories, or in the directory: what stands there is the
same. -/
theorem node?_eq (h : Agree root loc d d') (hpath : Within d.home root loc path)
    {front : List Text} (hfront : front <+: Path.pieces path) :
    d'.node? (destinationFrom (start d.home path) front)
        = d.node? (destinationFrom (start d.home path) front) ∧
      (d.node? (destinationFrom (start d.home path) front) = some .dir ∨
        loc <+: destinationFrom (start d.home path) front) := by
  rw [hpath.start_eq]
  rcases hpath.places front hfront with hroot | hbelow
  · have hdir := leads_of_find h.found front hroot
    have hdir' := leads_of_find h.found' front hroot
    rw [h.home] at hdir'
    exact ⟨hdir'.trans hdir.symm, .inl hdir⟩
  · exact ⟨node?_of_subtree h.subtree hbelow, .inr hbelow⟩

theorem walk_eq (h : Agree root loc d d') (hpath : Within d.home root loc path) :
    d'.walk path = d.walk path := by
  rw [Disk.walk_eq, Disk.walk_eq, h.home]
  split
  · rfl
  refine walkFrom_congr fun front hfront => ?_
  rw [steps] at hfront
  split at hfront
  · -- a point at the end leads where the pieces lead
    rcases List.prefix_concat_iff.1 hfront with rfl | hfront
    · rw [destinationFrom_append]
      exact (h.node?_eq hpath (List.prefix_refl _)).1
    · exact (h.node?_eq hpath hfront).1
  · exact (h.node?_eq hpath hfront).1

/-- Where a walk ends, the same stands on both disks. -/
theorem node?_of_walk (h : Agree root loc d d') (hpath : Within d.home root loc path)
    (hwalk : d.walk path = .ok place) :
    d'.node? place = d.node? place ∧ (d.node? place = some .dir ∨ loc <+: place) := by
  rw [destination_of_walk hwalk]
  exact h.node?_eq hpath (List.prefix_refl _)

theorem find_eq (h : Agree root loc d d') (hpath : Within d.home root loc path) :
    d'.find path = d.find path := by
  rw [find, find, h.walk_eq hpath]
  cases hwalk : d.walk path with
  | error e => rfl
  | ok place =>
    dsimp only
    rw [(h.node?_of_walk hpath hwalk).1]

/-! ### Writing -/

/-- Something is put into the directory on both disks. -/
theorem put (h : Agree root loc d d') (hplace : loc <+: place) (hdir : d.node? place ≠ some .dir)
    (node : DiskNode) : Moved root loc d (d.put place node) (d'.put place node) := by
  have hsame := node?_of_subtree h.subtree hplace
  have hconfined := Confined.put hplace hdir node
  have hconfined' := Confined.put (d := d') hplace (by rwa [hsame]) node
  refine ⟨⟨h.home, ?_, hconfined.keeps.find h.found, hconfined'.keeps.find h.found'⟩, hconfined⟩
  rw [subtree_put, subtree_put, subtree_remove, subtree_remove, h.subtree]

/-- Something is removed from the directory on both disks. -/
theorem remove (h : Agree root loc d d') (hplace : loc <+: place)
    (hdir : d.node? place ≠ some .dir) :
    Moved root loc d (d.remove place) (d'.remove place) := by
  have hsame := node?_of_subtree h.subtree hplace
  have hconfined := Confined.remove hplace hdir
  have hconfined' := Confined.remove (d := d') hplace (by rwa [hsame])
  refine ⟨⟨h.home, ?_, hconfined.keeps.find h.found, hconfined'.keeps.find h.found'⟩, hconfined⟩
  rw [subtree_remove, subtree_remove, h.subtree]

end Agree

/-- Two results of one operation: the same error, or disks that were changed alike. -/
inductive Alike (root : Text) (loc : Location) (d : Disk) :
    Except DiskError Disk → Except DiskError Disk → Prop where
  | error (e : DiskError) : Alike root loc d (.error e) (.error e)
  | ok {m m' : Disk} (h : Moved root loc d m m') : Alike root loc d (.ok m) (.ok m')

/-- Two results that also show what was done until an error. -/
inductive MadeAlike (root : Text) (loc : Location) (d : Disk) :
    Except DiskError Disk × Disk → Except DiskError Disk × Disk → Prop where
  | error (e : DiskError) {m m' : Disk} (h : Moved root loc d m m') :
    MadeAlike root loc d (.error e, m) (.error e, m')
  | ok {x x' m m' : Disk} (h : Moved root loc d m m') :
    MadeAlike root loc d (.ok x, m) (.ok x', m')

namespace Agree

variable {root path : Text} {loc place : Location} {d d' : Disk}

theorem makeDir (h : Agree root loc d d') (hpath : Within d.home root loc path) :
    Alike root loc d (d.makeDir path) (d'.makeDir path) := by
  have htrim := hpath.along (Path.along_trimRight path)
  rw [Disk.makeDir, Disk.makeDir, h.walk_eq htrim]
  cases hwalk : d.walk (Path.trimRight path) with
  | error e => exact .error e
  | ok place =>
    obtain ⟨hsame, hplace⟩ := h.node?_of_walk htrim hwalk
    dsimp only
    rw [hsame]
    cases hnode : d.node? place with
    | some node => exact .error _
    | none =>
      rw [hnode] at hplace
      exact .ok (h.put (hplace.resolve_left (by simp)) (by simp [hnode]) .dir)

theorem isDir_eq (h : Agree root loc d d') (hpath : Within d.home root loc path) :
    d'.isDir path = d.isDir path := by
  rw [Disk.isDir, Disk.isDir, h.find_eq hpath]

/-- An error stands unless there is a directory already. -/
theorem unlessDir (h : Agree root loc d d') (hpath : Within d.home root loc path) {d₀ : Disk}
    (hconfined : Confined loc d₀ d) (e : DiskError) :
    MadeAlike root loc d₀ (if d.isDir path then (.ok d, d) else (.error e, d))
      (if d'.isDir path then (.ok d', d') else (.error e, d')) := by
  rw [h.isDir_eq hpath]
  split
  · exact .ok ⟨h, hconfined⟩
  · exact .error e ⟨h, hconfined⟩

theorem makeDirsFrom (h : Agree root loc d d') (hpath : Within d.home root loc path)
    (fuel : Nat) :
    MadeAlike root loc d (makeDirsFrom fuel d path) (makeDirsFrom fuel d' path) := by
  induction fuel generalizing d d' path with
  | zero => exact .error _ h.moved
  | succ fuel ih =>
    have hstands := h.unlessDir hpath (.refl loc d)
    have hmake := h.makeDir hpath
    rw [Disk.makeDirsFrom, Disk.makeDirsFrom]
    split
    · exact .ok h.moved
    generalize d.makeDir path = x, d'.makeDir path = x' at hmake ⊢
    cases hmake with
    | ok hmoved => exact .ok hmoved
    | error e =>
      cases e
      case notFound =>
        dsimp only
        cases habove : Path.parent? path with
        | none => exact .error _ h.moved
        | some above =>
          have hfirst := ih h (hpath.along (Path.along_parent? habove))
          dsimp only
          generalize Disk.makeDirsFrom fuel d above = y, Disk.makeDirsFrom fuel d' above = y'
            at hfirst ⊢
          cases hfirst with
          | error e hmoved => exact .error e hmoved
          | @ok _ _ m m' hmoved =>
            -- the parent is there now
            have hpath' : Within m.home root loc path := hmoved.confined.home ▸ hpath
            have hagain := hmoved.agree.makeDir hpath'
            have hstands' := hmoved.agree.unlessDir hpath' hmoved.confined
            dsimp only
            generalize m.makeDir path = z, m'.makeDir path = z' at hagain ⊢
            cases hagain with
            | ok hmoved' => exact .ok (hmoved.trans hmoved')
            | error e => exact hstands' e
      all_goals exact hstands _

/-- Directories are made alike. -/
theorem makeDirs (h : Agree root loc d d') (hpath : Within d.home root loc path) :
    ∃ x m m', d.makeDirs path = (x, m) ∧ d'.makeDirs path = (x, m') ∧ Moved root loc d m m' := by
  have hmade := h.makeDirsFrom hpath (path.length + 1)
  rw [Disk.makeDirs, Disk.makeDirs]
  generalize Disk.makeDirsFrom (path.length + 1) d path = y,
    Disk.makeDirsFrom (path.length + 1) d' path = y' at hmade ⊢
  cases hmade with
  | error e hmoved => exact ⟨_, _, _, rfl, rfl, hmoved⟩
  | ok hmoved => exact ⟨_, _, _, rfl, rfl, hmoved⟩

/-- A file is written alike. -/
theorem writeBytes (h : Agree root loc d d') (hpath : Within d.home root loc path)
    (data : ByteArray) : Alike root loc d (d.writeBytes path data) (d'.writeBytes path data) := by
  have htrim := hpath.along (Path.along_trimRight path)
  rw [Disk.writeBytes, Disk.writeBytes, h.walk_eq htrim]
  cases hwalk : d.walk (Path.trimRight path) with
  | error e => exact .error e
  | ok place =>
    obtain ⟨hsame, hplace⟩ := h.node?_of_walk htrim hwalk
    dsimp only
    rw [hsame]
    split
    · exact .error _
    split
    · exact .error _
    · rename_i hdir
      exact .ok (h.put (hplace.resolve_left hdir) hdir _)

/-- A file is moved alike. -/
theorem rename (h : Agree root loc d d') {source target : Text} {data : ByteArray}
    (hsource : Within d.home root loc source) (htarget : Within d.home root loc target)
    (hfile : d.find source = .ok (place, .file data)) :
    Alike root loc d (d.rename source target) (d'.rename source target) := by
  have htrim := htarget.along (Path.along_trimRight target)
  obtain ⟨hwalk, hnode⟩ := find_eq_ok.1 hfile
  have hdir : d.node? place ≠ some .dir := by simp [hnode]
  have hplace := (h.node?_of_walk hsource hwalk).2.resolve_left hdir
  have hremoved := h.remove hplace hdir
  rw [Disk.rename, Disk.rename, h.find_eq hsource, h.walk_eq htrim, hfile]
  cases hdest : d.walk (Path.trimRight target) with
  | error e => exact .error e
  | ok dest =>
    obtain ⟨hsame, hbelow⟩ := h.node?_of_walk htrim hdest
    dsimp only
    rw [hsame]
    split
    · exact .error _
    split
    · exact .error _
    · rename_i hnot
      have hfree : (d.remove place).node? dest ≠ some .dir := by
        by_cases heq : dest = place
        · simp [heq, node?_remove_self]
        · rw [node?_remove_ne heq]
          exact hnot
      exact .ok (hremoved.trans (hremoved.agree.put (hbelow.resolve_left hnot) hfree _))

end Agree

end Disk

end Mend
