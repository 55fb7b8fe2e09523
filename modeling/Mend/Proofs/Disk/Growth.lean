import Mathlib.Data.List.Nodup
import Mend.Proofs.Disk.Folders

/-!
# Changes in a part of a directory

An operation can change a directory in one part only (`Disk.Grows`): what stands beside the part is
as before, and no place gets a second entry. Making directories and writing files along a path that
enters the part (`Disk.Enters`) is such an operation, whether it succeeds or not; so is one that
leaves the whole directory alone (`Disk.Skips`).
-/

namespace Mend

namespace Disk

variable {d d' d'' : Disk} {loc sub other : Location} {path : Text}

/-- The entries at and below a place are left as they are, and all directories stay. -/
structure Skips (loc : Location) (d d' : Disk) : Prop where
  home : d'.home = d.home
  dirs : ∀ place, d.node? place = some .dir → d'.node? place = some .dir
  subtree : d'.subtree loc = d.subtree loc

/-- Changes at one place leave another one apart alone. -/
theorem Confined.skips (h : Confined other d d') (hapart : Apart other loc) : Skips loc d d' :=
  ⟨h.home, h.dirs, h.subtree hapart⟩

/-- No place below a directory has two entries. -/
def IsTidy (d : Disk) (loc : Location) : Prop :=
  ∀ place, loc <+: place → place ≠ loc → ((d.subtree loc).map Prod.fst).count place ≤ 1

/-- A directory with nothing below it. -/
theorem isTidy_of_empty (h : ∀ rest, rest ≠ [] → d.node? (loc ++ rest) = none) : d.IsTidy loc := by
  rintro place ⟨rest, rfl⟩ hne
  have hnone := h rest fun hnil => hne (by rw [hnil, List.append_nil])
  rw [node?, List.lookup_eq_none_iff] at hnone
  refine Nat.le_trans (Nat.le_of_eq (List.count_eq_zero.2 fun hmem => ?_)) (Nat.zero_le 1)
  obtain ⟨e, he, heq⟩ := List.mem_map.1 hmem
  simpa [heq] using hnone e (List.mem_filter.1 he).1

/-- The entry that is counted. -/
theorem lookup_of_count_le {entries : List (Location × DiskNode)} {place : Location}
    {node : DiskNode} (hcount : (entries.map Prod.fst).count place ≤ 1)
    (hmem : (place, node) ∈ entries) : entries.lookup place = some node := by
  induction entries with
  | nil => cases hmem
  | cons e rest ih =>
    obtain ⟨other, found⟩ := e
    rw [List.map_cons, List.count_cons] at hcount
    by_cases heq : place = other
    · subst heq
      rcases List.mem_cons.1 hmem with hfirst | hrest
      · rw [(Prod.mk.inj hfirst).2, List.lookup_cons_self]
      · -- a second entry would be counted too
        have hpos : 0 < (rest.map Prod.fst).count place :=
          List.count_pos_iff.2 (List.mem_map.2 ⟨_, hrest, rfl⟩)
        simp only [beq_self_eq_true, if_true] at hcount
        omega
    · rw [lookup_cons_ne heq]
      refine ih (by omega) ((List.mem_cons.1 hmem).resolve_left fun hfirst => heq ?_)
      exact (Prod.mk.inj hfirst).1

theorem child?_eq_some {e : Location × DiskNode} {name : Text} {node : DiskNode} :
    child? loc e = some (name, node) ↔ e = (loc ++ [name], node) := by
  obtain ⟨place, found⟩ := e
  rcases List.eq_nil_or_concat place with rfl | ⟨front, last, rfl⟩
  · simp [child?]
  · by_cases hfront : front = loc
    · simp [child?, hfront]
    · simp [child?, hfront]

theorem count_child? (entries : List (Location × DiskNode)) (loc : Location) (name : Text) :
    ((entries.filterMap (child? loc)).map Prod.fst).count name
      = (entries.map Prod.fst).count (loc ++ [name]) := by
  induction entries with
  | nil => rfl
  | cons e rest ih =>
    rcases hchild : child? loc e with _ | ⟨other, node⟩
    · have hne : e.1 ≠ loc ++ [name] := by
        intro heq
        have hsome : child? loc e = some (name, e.2) := child?_eq_some.2 (Prod.ext heq rfl)
        exact nomatch hchild.symm.trans hsome
      rw [List.filterMap_cons_none hchild, List.map_cons, List.count_cons_of_ne hne, ih]
    · rw [List.filterMap_cons_some hchild, child?_eq_some.1 hchild]
      simp [List.count_cons, ih]

/-- What stands in a tidy directory is listed once each. -/
theorem children_perm (htidy : d.IsTidy loc) {names : List Text} (hnames : names.Nodup)
    (h : ∀ name node, d.node? (loc ++ [name]) = some node ↔ node = .dir ∧ name ∈ names) :
    (d.children loc).Perm (names.map fun name => (name, .dir)) := by
  rw [children_eq, ← filterMap_child?_subtree d (List.prefix_refl loc)]
  refine (List.mergeSort_perm ..).trans ?_
  have hcount : ∀ name, ((d.subtree loc).map Prod.fst).count (loc ++ [name]) ≤ 1 := fun name =>
    htidy _ (List.prefix_append ..) (by simp)
  have hmem : ∀ name node, (name, node) ∈ (d.subtree loc).filterMap (child? loc) ↔
      d.node? (loc ++ [name]) = some node := by
    intro name node
    have hlookup : d.node? (loc ++ [name]) = (d.subtree loc).lookup (loc ++ [name]) := by
      rw [subtree, lookup_filter_of_pos (p := fun l => loc.isPrefixOf l)
        (List.isPrefixOf_iff_prefix.2 (List.prefix_append ..)), node?]
    rw [hlookup, List.mem_filterMap]
    constructor
    · rintro ⟨e, he, hchild⟩
      rw [child?_eq_some] at hchild
      exact lookup_of_count_le (hcount name) (hchild ▸ he)
    · intro hfound
      obtain ⟨front, back, hentries, -⟩ := List.lookup_eq_some_iff.1 hfound
      exact ⟨_, hentries ▸ List.mem_append_right _ List.mem_cons_self, child?_eq_some.2 rfl⟩
  have hnodup : ((d.subtree loc).filterMap (child? loc)).Nodup := by
    refine List.Nodup.of_map Prod.fst (List.nodup_iff_count_le_one.2 fun name => ?_)
    rw [count_child?]
    exact hcount name
  have hnodup' : (names.map fun name => (name, DiskNode.dir)).Nodup :=
    hnames.map fun _ _ heq => (Prod.mk.inj heq).1
  refine (List.perm_ext_iff_of_nodup hnodup hnodup').2 fun e => ?_
  obtain ⟨name, node⟩ := e
  rw [hmem, h, List.mem_map]
  constructor
  · rintro ⟨rfl, hname⟩
    exact ⟨name, hname, rfl⟩
  · rintro ⟨other, hother, heq⟩
    cases heq
    exact ⟨rfl, hother⟩

/-- A directory changes in one part only. -/
structure Grows (loc sub : Location) (d d' : Disk) : Prop where
  home : d'.home = d.home
  dirs : ∀ place, d.node? place = some .dir → d'.node? place = some .dir
  others : ∀ place, loc <+: place → ¬ sub <+: place → d'.node? place = d.node? place
  tidy : d.IsTidy loc → d'.IsTidy loc

namespace Grows

theorem refl (loc sub : Location) (d : Disk) : Grows loc sub d d :=
  ⟨rfl, fun _ => id, fun _ _ _ => rfl, id⟩

theorem trans (h : Grows loc sub d d') (h' : Grows loc sub d' d'') : Grows loc sub d d'' where
  home := h'.home.trans h.home
  dirs place hdir := h'.dirs place (h.dirs place hdir)
  others place hloc hsub := (h'.others place hloc hsub).trans (h.others place hloc hsub)
  tidy htidy := h'.tidy (h.tidy htidy)

theorem keeps (h : Grows loc sub d d') : Keeps (fun _ => True) d d' :=
  ⟨h.home, h.dirs, fun _ _ hnot => absurd trivial hnot⟩

theorem of_skips (h : Skips loc d d') : Grows loc sub d d' where
  home := h.home
  dirs := h.dirs
  others _ hloc _ := node?_of_subtree h.subtree hloc
  tidy htidy place hplace hne := by
    rw [h.subtree]
    exact htidy place hplace hne

/-- Something is put into the part. -/
theorem put {place : Location} (hsub : sub <+: place) (hdir : d.node? place ≠ some .dir)
    (node : DiskNode) : Grows loc sub d (d.put place node) where
  home := rfl
  dirs := (Keeps.put hdir).dirs
  others other _ hother := node?_put_ne node fun heq => hother (heq ▸ hsub)
  tidy htidy other hother hne := by
    rw [subtree_put, subtree_remove]
    by_cases heq : place = other
    · -- what stood there was taken away
      subst heq
      have hgone : (((d.subtree loc).filter fun e => e.1 ≠ place).map Prod.fst).count place = 0 := by
        simp [List.count_eq_zero]
      refine Nat.le_of_eq ?_
      rw [if_pos (List.isPrefixOf_iff_prefix.2 hother), List.map_cons, List.count_cons_self, hgone]
    · have hkept := ((List.filter_sublist (p := fun e => e.1 ≠ place)
        (l := d.subtree loc)).map Prod.fst).count_le other
      refine Nat.le_trans ?_ (htidy other hother hne)
      split
      · rwa [List.map_cons, List.count_cons_of_ne heq]
      · exact hkept

end Grows

/-! ## Paths into a part -/

/-- A path leads over directories that are there, or into a part. -/
def Enters (d : Disk) (sub : Location) (path : Text) : Prop :=
  ∀ front, front <+: Path.pieces path →
    d.node? (destinationFrom (start d.home path) front) = some .dir ∨
      sub <+: destinationFrom (start d.home path) front

namespace Enters

theorem along {more : Text} (h : d.Enters sub path) (halong : Path.Along more path) :
    d.Enters sub more := by
  intro front hfront
  have hstart : start d.home more = start d.home path := by rw [start, start, halong.isAbsolute]
  rw [hstart]
  exact h front (hfront.trans halong.pieces)

/-- So it is when there are more directories. -/
theorem of_keeps {touched : Location → Prop} (h : d.Enters sub path) (hkeeps : Keeps touched d d') :
    d'.Enters sub path := by
  intro front hfront
  rw [hkeeps.home]
  exact (h front hfront).imp_left (hkeeps.dirs _)

/-- No directory is made outside of the part. -/
theorem sub_of_ne_dir (h : d.Enters sub path) (hdir : d.node? (destination d.home path) ≠ some .dir) :
    sub <+: destination d.home path :=
  (h _ (List.prefix_refl _)).resolve_left hdir

end Enters

/-- A file in a directory of the part is in the part. -/
theorem Enters.join {dir name : Text} (h : d.Enters sub dir) (hname : Path.IsName name)
    (hsub : sub <+: destination d.home dir) : d.Enters sub (Path.join dir name) := by
  intro front hfront
  have hstart : start d.home (Path.join dir name) = start d.home dir := by
    rw [start, start, hname.isAbsolute_join]
  rw [hstart]
  rw [hname.pieces_join] at hfront
  rcases List.prefix_concat_iff.1 hfront with rfl | hfront
  · right
    rw [destinationFrom_append]
    rw [Path.destinationFrom_names (List.forall_mem_singleton.2 hname)]
    exact hsub.trans (List.prefix_append ..)
  · exact h front hfront

/-- Names below a directory enter the part that the first of them leads to. -/
theorem enters_foldl_join {dir name : Text} {names : List Text} (h : d.Leads dir)
    (hnames : ∀ n ∈ name :: names, Path.IsName n) :
    d.Enters (destination d.home dir ++ [name]) ((name :: names).foldl Path.join dir) := by
  intro front hfront
  have hstart : start d.home ((name :: names).foldl Path.join dir) = start d.home dir := by
    rw [start, start, Path.isAbsolute_foldl_join hnames]
  rw [hstart]
  rw [Path.pieces_foldl_join hnames] at hfront
  rcases List.prefix_or_prefix_of_prefix hfront (List.prefix_append ..) with hdir | ⟨more, rfl⟩
  · exact .inl (h front hdir)
  have hmore := (List.prefix_append_right_inj _).1 hfront
  have hdest : destinationFrom (start d.home dir) (Path.pieces dir ++ more)
      = destination d.home dir ++ more := by
    rw [destinationFrom_append, Path.destinationFrom_names fun n hn => hnames n (hmore.subset hn)]
    rfl
  rw [hdest]
  cases more with
  | nil =>
    left
    rw [List.append_nil]
    exact h _ (List.prefix_refl _)
  | cons first more =>
    obtain rfl := (List.cons_prefix_cons.1 hmore).1
    right
    exact ⟨more, by simp⟩

/-! ## Operations -/

theorem makeDir_grows (h : d.makeDir path = .ok d') (henters : d.Enters sub path) :
    Grows loc sub d d' := by
  rw [makeDir] at h
  cases hwalk : d.walk (Path.trimRight path) with
  | error e => simp [hwalk] at h
  | ok place =>
    obtain rfl : place = destination d.home path :=
      (destination_of_walk hwalk).trans (destination_trimRight ..)
    rw [hwalk] at h
    dsimp only at h
    cases hnode : d.node? (destination d.home path) with
    | some node => simp [hnode] at h
    | none =>
      rw [hnode] at h
      cases h
      have hdir : d.node? (destination d.home path) ≠ some .dir := by simp [hnode]
      exact .put (henters.sub_of_ne_dir hdir) hdir _

/-- Directories are made in the part. -/
theorem makeDirs_grows {x : Except DiskError Unit} (h : d.makeDirs path = (x, d'))
    (henters : d.Enters sub path) : Grows loc sub d d' := by
  have hgrows : RelatesMaking fun path d d' => d.Enters sub path → Grows loc sub d d' :=
    { refl := fun _ d _ => .refl loc sub d
      make := makeDir_grows
      above := fun habove hmade henters => hmade (henters.along (Path.along_parent? habove))
      trans := fun hfirst hrest henters =>
        (hfirst henters).trans (hrest (henters.of_keeps (hfirst henters).keeps)) }
  exact hgrows.makeDirs h henters

/-- A file is written into the part. -/
theorem writeBytes_grows {data : ByteArray} (h : d.writeBytes path data = .ok d')
    (henters : d.Enters sub path) : Grows loc sub d d' := by
  obtain ⟨rfl, hdir⟩ := eq_put_of_writeBytes h
  exact .put (henters.sub_of_ne_dir hdir) hdir _

end Disk

namespace TurnLog

variable {d d' : Disk} {loc sub : Location} {dir : Text} {files : List (Text × Text)}
  {x : Except Failure Unit}

theorem writeFiles_grows (hnames : ∀ file ∈ files, Path.IsName file.1) (henters : d.Enters sub dir)
    (hsub : sub <+: Disk.destination d.home dir) (h : writeFiles dir files d = (x, d')) :
    Disk.Grows loc sub d d' := by
  induction files generalizing d with
  | nil =>
    cases h
    exact .refl loc sub _
  | cons file rest ih =>
    obtain ⟨name, content⟩ := file
    rw [List.forall_mem_cons] at hnames
    rw [writeFiles] at h
    cases hwrite : d.writeText (Path.join dir name) content with
    | error e =>
      rw [hwrite] at h
      cases h
      exact .refl loc sub _
    | ok d₁ =>
      rw [hwrite] at h
      have hfirst : Disk.Grows loc sub d d₁ :=
        Disk.writeBytes_grows hwrite (henters.join hnames.1 hsub)
      exact hfirst.trans (ih hnames.2 (henters.of_keeps hfirst.keeps) (hfirst.home ▸ hsub) h)

/-- A directory of files is written into the part, or as much of it as can be. -/
theorem writeDir_grows {doing : String} (hnames : ∀ file ∈ files, Path.IsName file.1)
    (henters : d.Enters sub dir) (hsub : sub <+: Disk.destination d.home dir)
    (h : writeDir doing dir files d = (x, d')) : Disk.Grows loc sub d d' := by
  rw [writeDir] at h
  split at h
  · rename_i u d₁ hmake
    have hmade : Disk.Grows loc sub d d₁ := Disk.makeDirs_grows hmake henters
    exact hmade.trans
      (writeFiles_grows hnames (henters.of_keeps hmade.keeps) (hmade.home ▸ hsub) h)
  · rename_i e d₁ hmake
    cases h
    exact Disk.makeDirs_grows hmake henters

end TurnLog

end Mend
