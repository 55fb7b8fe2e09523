import Mend.Proofs.Disk.Folders
import Mend.Proofs.Store.Separation

/-!
# Writes

What a write does to the disk, one case for each step that can fail (`DirectoryStore.Writes`): the
missing directories are made, a hidden file is written beside the file, and it takes the place of
the file. Nothing else changes (`DirectoryStore.write_writes`). So a write touches its file and the
hidden one (`DirectoryStore.write_leaves`). The hidden file is the weak place: when it cannot take
the place of the file it stays, and what was there before is lost
(`DirectoryStore.write_touchesMore`).
-/

namespace Mend

namespace Disk

variable {d d' : Disk} {root parent : Text} {loc place : Location} {names : List Text}

/-! ## Directories below a place -/

/-- Directories are made on the way of names below a place, and nothing else changes. -/
structure MakesBelow (loc : Location) (names : List Text) (d d' : Disk) : Prop where
  home : d'.home = d.home
  node? : ∀ place, d'.node? place = d.node? place ∨
    d.node? place = none ∧ d'.node? place = some .dir ∧
      ∃ rest, rest ≠ [] ∧ rest <+: names ∧ place = loc ++ rest

/-- Nothing is made beside the directories on the way. -/
theorem MakesBelow.node?_concat (h : MakesBelow loc names d d') (name : Text) :
    d'.node? (loc ++ names ++ [name]) = d.node? (loc ++ names ++ [name]) := by
  rcases h.node? (loc ++ names ++ [name]) with hsame | ⟨-, -, rest, -, hrest, hplace⟩
  · exact hsame
  · rw [List.append_assoc, List.append_cancel_left_eq] at hplace
    have hlength := hrest.length_le
    rw [← hplace, List.length_append, List.length_singleton] at hlength
    omega

/-- The directories on the way of a path below one that is there are made below it. -/
theorem Makes.below (h : Makes parent d d') (hnames : ∀ name ∈ names, Path.IsName name)
    (halong : Path.Along parent (names.foldl Path.join root))
    (hroot : d.find root = .ok (loc, .dir)) : MakesBelow loc names d d' where
  home := h.home
  node? place := by
    refine ((h.along halong).cases_foldl_join hnames place).imp_right
      fun ⟨hnone, hmade, hplace⟩ => ⟨hnone, hmade, ?_⟩
    rcases hplace with ⟨front, hfront, rfl⟩ | hbelow
    · -- nothing is made on the way of the path that is there
      exact nomatch hnone.symm.trans (leads_of_find hroot front hfront)
    · rw [← destination_of_walk (find_eq_ok.1 hroot).1] at hbelow
      exact hbelow

/-! ## Regular files -/

/-- The bytes of the regular file at a place. -/
def file? (d : Disk) (place : Location) : Option ByteArray :=
  match d.node? place with
  | some (.file data) => some data
  | _ => none

theorem file?_congr (h : d'.node? place = d.node? place) : d'.file? place = d.file? place := by
  rw [file?, file?, h]

@[simp]
theorem file?_put_self (d : Disk) (place : Location) (data : ByteArray) :
    (d.put place (.file data)).file? place = some data := by
  rw [file?, node?_put_self]

/-- Making directories leaves the regular files alone. -/
theorem MakesBelow.file? (h : MakesBelow loc names d d') (place : Location) :
    d'.file? place = d.file? place := by
  rcases h.node? place with hsame | ⟨hnone, hdir, -⟩
  · exact file?_congr hsame
  · rw [Disk.file?, Disk.file?, hnone, hdir]

end Disk

namespace DirectoryStore

variable {σ : DirectoryStore} {loc : Location} {path content : Text} {d d' : Disk}
  {x : Except Failure Unit}

/-- What a write does, by the step that it comes to. -/
inductive Writes (σ : DirectoryStore) (loc : Location) (path content : Text) (d : Disk) :
    Except Failure Unit → Disk → Prop
  /-- The path is refused. -/
  | refused {f : Failure} (hresolve : resolve path = .error f) :
    Writes σ loc path content d (.error f) d
  /-- The path leads to the directory itself. -/
  | itself (hresolve : resolve path = .ok []) :
    Writes σ loc path content d
      (.error (.ofText "cannot write to the working directory itself".toList)) d
  /-- Directories are made, and then one of them or the hidden file cannot be made. -/
  | stuck {f : Failure} {front : List Text} {name : Text} {d₁ : Disk}
    (hresolve : resolve path = .ok (front ++ [name])) (hmakes : Disk.MakesBelow loc front d d₁) :
    Writes σ loc path content d (.error f) d₁
  /-- The hidden file is written and cannot take the place of the file. -/
  | blocked {f : Failure} {front : List Text} {name : Text} {d₁ : Disk}
    (hresolve : resolve path = .ok (front ++ [name])) (hmakes : Disk.MakesBelow loc front d d₁)
    (hhidden : d₁.node? (loc ++ front ++ [temporaryName name]) ≠ some .dir)
    (hblocked : d₁.node? (loc ++ front ++ [name]) = some .dir ∨
      Disk.longestPath < (σ.fullPath (front ++ [name])).byteLength) :
    Writes σ loc path content d (.error f)
      (d₁.put (loc ++ front ++ [temporaryName name]) (.file content.toBytes))
  /-- The hidden file is written and takes the place of the file. -/
  | done {front : List Text} {name : Text} {d₁ d' : Disk}
    (hresolve : resolve path = .ok (front ++ [name])) (hmakes : Disk.MakesBelow loc front d d₁)
    (hhidden : d₁.node? (loc ++ front ++ [temporaryName name]) ≠ some .dir)
    (hfree : d₁.node? (loc ++ front ++ [name]) ≠ some .dir)
    (hdisk : d' = ((d₁.put (loc ++ front ++ [temporaryName name]) (.file content.toBytes)).remove
      (loc ++ front ++ [temporaryName name])).put (loc ++ front ++ [name]) (.file content.toBytes))
    (hfind : d'.find (σ.fullPath (front ++ [name]))
      = .ok (loc ++ front ++ [name], .file content.toBytes)) :
    Writes σ loc path content d (.ok ()) d'

theorem temporaryName_ne (name : Text) : temporaryName name ≠ name := by
  intro heq
  have hlength := congrArg List.length heq
  simp [temporaryName] at hlength
  omega

theorem infix_temporaryName (name : Text) : name <:+: temporaryName name :=
  ⟨['.'], ".patchloop.tmp".toList, rfl⟩

/-- The last step of a write: the hidden file was written. -/
theorem writes_of_rename {front : List Text} {name above : Text} {d₁ d₂ : Disk}
    (hroot : d.find σ.root = .ok (loc, .dir)) (hresolve : resolve path = .ok (front ++ [name]))
    (hmakes : Disk.MakesBelow loc front d d₁) (hshort : Path.Shortens above (σ.fullPath front))
    (hwrite : d₁.writeText (Path.join above (temporaryName name)) content = .ok d₂) :
    (∀ e f, d₂.rename (Path.join above (temporaryName name)) (σ.fullPath (front ++ [name]))
        = .error e → σ.Writes loc path content d (.error f) d₂) ∧
      (∀ d₃, d₂.rename (Path.join above (temporaryName name)) (σ.fullPath (front ++ [name]))
        = .ok d₃ → σ.Writes loc path content d (.ok ()) d₃) := by
  have hnames := isName_of_resolve hresolve
  rw [List.forall_mem_append, List.forall_mem_singleton] at hnames
  have htemporary := isName_temporaryName hnames.2
  -- both places are named from the directory
  have hbase : Disk.destination d₁.home (σ.fullPath front) = loc ++ front := by
    rw [destination_fullPath _ hnames.1, hmakes.home,
      Disk.destination_of_walk (Disk.find_eq_ok.1 hroot).1]
  obtain ⟨hput, hhidden⟩ := Disk.eq_put_of_writeBytes hwrite
  rw [htemporary.destination_join, hshort.destination, hbase] at hput hhidden
  refine ⟨fun e f hrename => ?_, fun d₃ hrename => ?_⟩
  · rw [hput]
    refine .blocked hresolve hmakes hhidden ?_
    -- the hidden file stands beside the file, so the file can be walked to as well
    by_contra hfree
    rw [not_or, Nat.not_lt, fullPath_concat] at hfree
    obtain ⟨place, hwalk, -⟩ := Disk.writeBytes_eq_ok.1 hwrite
    have hwalk' := Disk.walk_beside hshort htemporary hnames.2 hwalk (infix_temporaryName name)
      hfree.2
    rw [hbase] at hwalk'
    obtain ⟨d₃, hdone⟩ := Disk.exists_rename hwrite hwalk' hfree.1
    rw [fullPath_concat, hdone] at hrename
    cases hrename
  · obtain ⟨place, hfind⟩ := Disk.find_of_rename hwrite hrename
    obtain ⟨hidden, node, dest, hfound, hdest, hfree, rfl⟩ := Disk.rename_eq_ok.1 hrename
    obtain ⟨hfound, hnode⟩ := Disk.find_eq_ok.1 hfound
    subst hput
    -- the two walks end where the names say
    have hplace : ∀ {m : Disk} {place}, m.walk (σ.fullPath (front ++ [name])) = .ok place →
        m.home = d₁.home → place = loc ++ front ++ [name] := by
      intro m place hwalk hhome
      rw [Disk.destination_of_walk hwalk, hhome, fullPath_concat, hnames.2.destination_join, hbase]
    obtain rfl : hidden = loc ++ front ++ [temporaryName name] := by
      rw [Disk.destination_of_walk hfound, htemporary.destination_join, hshort.destination]
      exact congrArg (· ++ [temporaryName name]) hbase
    obtain rfl : node = .file content.toBytes := by
      rw [Disk.node?_put_self] at hnode
      exact (Option.some.inj hnode).symm
    obtain rfl := hplace hdest rfl
    obtain rfl := hplace (Disk.find_eq_ok.1 hfind).1 rfl
    have hne : loc ++ front ++ [name] ≠ loc ++ front ++ [temporaryName name] := by
      simpa using (temporaryName_ne name).symm
    rw [Disk.node?_put_ne _ hne] at hfree
    exact .done hresolve hmakes hhidden hfree rfl hfind

/-- A write does what its first failing step leaves. -/
theorem write_writes (hroot : d.find σ.root = .ok (loc, .dir))
    (h : σ.write path content d = (x, d')) : σ.Writes loc path content d x d' := by
  rw [write] at h
  cases hresolve : resolve path with
  | error f =>
    rw [hresolve] at h
    cases h
    exact .refused hresolve
  | ok names =>
    have hnames := isName_of_resolve hresolve
    rw [hresolve] at h
    dsimp only at h
    cases hlast : names.getLast? with
    | none =>
      rw [hlast] at h
      cases h
      obtain rfl := List.getLast?_eq_none_iff.1 hlast
      exact .itself hresolve
    | some name =>
      rw [hlast] at h
      obtain ⟨front, rfl⟩ := List.getLast?_eq_some_iff.1 hlast
      rw [List.forall_mem_append, List.forall_mem_singleton] at hnames
      obtain ⟨above, habove, hshort⟩ := σ.exists_parent?_fullPath front hnames.2
      dsimp only at h
      rw [habove, Option.getD_some] at h
      -- from here on a failure leaves the directories that were made
      rcases hdirs : d.makeDirs above with ⟨made, d₁⟩
      have hmakes := (Disk.makeDirs_makes hdirs).1.below hnames.1 hshort.along hroot
      rw [hdirs] at h
      rcases made with e | ⟨⟨⟩⟩
      · cases h
        exact .stuck hresolve hmakes
      dsimp only at h
      split at h
      · cases h
        exact .stuck hresolve hmakes
      rename_i d₂ hwrite
      obtain ⟨hblocked, hdone⟩ := writes_of_rename hroot hresolve hmakes hshort hwrite
      split at h
      · rename_i e hrename
        cases h
        exact hblocked e _ hrename
      · rename_i d₃ hrename
        cases h
        exact hdone _ hrename

/-! ## The files of the directory -/

/-- A write with its result touches one regular file of the directory. When it succeeds, the file
that the path leads to has the content and the other ones are as before. When it fails, all of them
are as before. Files under the `spared` names may change. -/
structure TouchesOne (σ : DirectoryStore) (loc : Location) (path content : Text)
    (spared : List Text → Prop) (d : Disk) (x : Except Failure Unit) (d' : Disk) : Prop where
  ok : x = .ok () → ∃ names, resolve path = .ok names ∧
    d'.find (σ.fullPath names) = .ok (loc ++ names, .file content.toBytes) ∧
    ∀ rest, rest ≠ names → ¬ spared rest → d'.file? (loc ++ rest) = d.file? (loc ++ rest)
  error : ∀ f, x = .error f →
    ∀ rest, ¬ spared rest → d'.file? (loc ++ rest) = d.file? (loc ++ rest)

/-- The names of the hidden file that a write of a path goes through. -/
def IsHidden (path : Text) (rest : List Text) : Prop :=
  ∃ front name, resolve path = .ok (front ++ [name]) ∧ rest = front ++ [temporaryName name]

/-- What keeps the hidden file from taking the place of the file: a directory stands there, or the
path is too long. -/
def IsBlocked (σ : DirectoryStore) (loc : Location) (d : Disk) (names : List Text) : Prop :=
  d.node? (loc ++ names) = some .dir ∨ Disk.longestPath < (σ.fullPath names).byteLength

/-- What a write leaves in its directory. -/
structure Leaves (σ : DirectoryStore) (loc : Location) (path content : Text) (d : Disk)
    (x : Except Failure Unit) (d' : Disk) : Prop where
  /-- The write touches one file and the hidden one. -/
  others : σ.TouchesOne loc path content (IsHidden path) d x d'
  /-- The hidden file is gone when the write succeeds. -/
  gone : x = .ok () → ∀ rest, IsHidden path rest → d'.node? (loc ++ rest) = none
  /-- When the write fails, the hidden file is as before, or it is left behind. -/
  left : ∀ f, x = .error f → ∀ rest, IsHidden path rest →
    d'.file? (loc ++ rest) = d.file? (loc ++ rest) ∨
      d'.file? (loc ++ rest) = some content.toBytes ∧
        ∃ names, resolve path = .ok names ∧ names ≠ [] ∧ σ.IsBlocked loc d names

section Leaves

variable {front names rest : List Text} {name : Text}

theorem isHidden_iff (hresolve : resolve path = .ok (front ++ [name])) :
    IsHidden path rest ↔ rest = front ++ [temporaryName name] := by
  constructor
  · rintro ⟨front', name', hresolve', rfl⟩
    rw [hresolve] at hresolve'
    obtain ⟨rfl, hname⟩ := List.append_inj' (Except.ok.inj hresolve') rfl
    rw [(List.cons.inj hname).1]
  · exact fun hrest => ⟨front, name, hresolve, hrest⟩

theorem not_isHidden_of_error {f : Failure} (hresolve : resolve path = .error f) :
    ¬ IsHidden path rest := by
  rintro ⟨front, name, hresolve', -⟩
  rw [hresolve] at hresolve'
  cases hresolve'

theorem not_isHidden_of_nil (hresolve : resolve path = .ok []) : ¬ IsHidden path rest := by
  rintro ⟨front, name, hresolve', -⟩
  rw [hresolve] at hresolve'
  exact List.concat_ne_nil _ _ (Except.ok.inj hresolve').symm

theorem Writes.leaves (h : σ.Writes loc path content d x d') :
    σ.Leaves loc path content d x d' := by
  cases h with
  | refused hresolve =>
    exact ⟨⟨nofun, fun _ _ _ _ => rfl⟩, nofun,
      fun _ _ rest hrest => absurd hrest (not_isHidden_of_error hresolve)⟩
  | itself hresolve =>
    exact ⟨⟨nofun, fun _ _ _ _ => rfl⟩, nofun,
      fun _ _ rest hrest => absurd hrest (not_isHidden_of_nil hresolve)⟩
  | stuck hresolve hmakes =>
    exact ⟨⟨nofun, fun _ _ rest _ => hmakes.file? _⟩, nofun,
      fun _ _ rest _ => .inl (hmakes.file? _)⟩
  | @blocked f front name d₁ hresolve hmakes hhidden hblocked =>
    -- all that is there besides the directories is the hidden file
    refine ⟨⟨nofun, fun _ _ rest hrest => ?_⟩, nofun, fun _ _ rest hrest => .inr ⟨?_, ?_⟩⟩
    · rw [isHidden_iff hresolve] at hrest
      have hne : loc ++ rest ≠ loc ++ front ++ [temporaryName name] := by simpa using hrest
      exact (Disk.file?_congr (Disk.node?_put_ne _ hne)).trans (hmakes.file? _)
    · obtain rfl := (isHidden_iff hresolve).1 hrest
      rw [← List.append_assoc, Disk.file?_put_self]
    · rw [hmakes.node?_concat, List.append_assoc] at hblocked
      exact ⟨_, hresolve, List.concat_ne_nil _ _, hblocked⟩
  | @done front name d₁ _ hresolve hmakes hhidden hfree hdisk hfind =>
    subst hdisk
    refine ⟨⟨fun _ => ⟨_, hresolve, ?_, fun rest hrest hnot => ?_⟩, nofun⟩, fun _ rest hrest => ?_,
      nofun⟩
    · rw [← List.append_assoc]
      exact hfind
    · -- a place that is neither of the two is passed over by all three steps
      rw [isHidden_iff hresolve] at hnot
      have hne : loc ++ rest ≠ loc ++ front ++ [name] := by simpa using hrest
      have hne' : loc ++ rest ≠ loc ++ front ++ [temporaryName name] := by simpa using hnot
      refine (Disk.file?_congr ?_).trans (hmakes.file? _)
      rw [Disk.node?_put_ne _ hne, Disk.node?_remove_ne hne', Disk.node?_put_ne _ hne']
    · obtain rfl := (isHidden_iff hresolve).1 hrest
      have hne : loc ++ front ++ [temporaryName name] ≠ loc ++ front ++ [name] := by
        simpa using temporaryName_ne name
      rw [← List.append_assoc, Disk.node?_put_ne _ hne, Disk.node?_remove_self]

/-- What a write leaves is one file when no file is hidden beside it before and nothing stands in
its way. -/
theorem Leaves.touchesOne (h : σ.Leaves loc path content d x d')
    (hhidden : ∀ rest, IsHidden path rest → d.file? (loc ++ rest) = none)
    (hfree : ∀ names, resolve path = .ok names → names ≠ [] → ¬ σ.IsBlocked loc d names) :
    σ.TouchesOne loc path content (fun _ => False) d x d' where
  ok hx := by
    obtain ⟨names, hresolve, hfind, hothers⟩ := h.others.ok hx
    refine ⟨names, hresolve, hfind, fun rest hrest _ => ?_⟩
    by_cases hrest' : IsHidden path rest
    · -- there was no hidden file, and none is left
      rw [hhidden rest hrest', Disk.file?, h.gone hx rest hrest']
    · exact hothers rest hrest hrest'
  error f hx rest _ := by
    by_cases hrest : IsHidden path rest
    · rcases h.left f hx rest hrest with hsame | ⟨-, names, hresolve, hne, hblocked⟩
      · exact hsame
      · exact absurd hblocked (hfree names hresolve hne)
    · exact h.others.error f hx rest hrest

end Leaves

/-- A write touches its file and the hidden one beside it. It touches its file only, when no file is
hidden there before and nothing keeps the hidden one from taking its place. -/
theorem write_leaves (hroot : d.find σ.root = .ok (loc, .dir)) (path content : Text) :
    ∃ x d', σ.write path content d = (x, d') ∧ σ.Leaves loc path content d x d' ∧
      ((∀ rest, IsHidden path rest → d.file? (loc ++ rest) = none) →
        (∀ names, resolve path = .ok names → names ≠ [] → ¬ σ.IsBlocked loc d names) →
        σ.TouchesOne loc path content (fun _ => False) d x d') := by
  rcases hwrite : σ.write path content d with ⟨x, d'⟩
  have hleaves := (write_writes hroot hwrite).leaves
  exact ⟨x, d', rfl, hleaves, hleaves.touchesOne⟩

/-- A directory that holds a directory, a file, and a hidden file beside it. -/
def sampleTree : Disk where
  entries := [([], .dir), ([['w']], .dir), ([['w'], ['d']], .dir),
    ([['w'], ['f']], .file "x".toUTF8), ([['w'], ".f.patchloop.tmp".toList], .file "k".toUTF8)]
  home := []

theorem write_leaves_sample :
    let σ : DirectoryStore := ⟨"/w".toList, 100⟩
    sampleTree.find σ.root = .ok ([['w']], .dir) ∧
      (∀ rest, IsHidden "d/g".toList rest → sampleTree.file? ([['w']] ++ rest) = none) ∧
      (∀ names, resolve "d/g".toList = .ok names → names ≠ [] →
        ¬ σ.IsBlocked [['w']] sampleTree names) ∧
      ∃ x d', σ.write "d/g".toList "y".toList sampleTree = (x, d') ∧
        σ.Leaves [['w']] "d/g".toList "y".toList sampleTree x d' ∧
        σ.TouchesOne [['w']] "d/g".toList "y".toList (fun _ => False) sampleTree x d' := by
  intro σ
  have hroot : sampleTree.find σ.root = .ok ([['w']], .dir) := by decide +kernel
  have hresolve : resolve "d/g".toList = .ok ([['d']] ++ [['g']]) := by decide +kernel
  have hhidden : ∀ rest, IsHidden "d/g".toList rest →
      sampleTree.file? ([['w']] ++ rest) = none := by
    intro rest hrest
    obtain rfl := (isHidden_iff hresolve).1 hrest
    decide +kernel
  have hfree : ∀ names, resolve "d/g".toList = .ok names → names ≠ [] →
      ¬ σ.IsBlocked [['w']] sampleTree names := by
    intro names hnames _
    obtain rfl := Except.ok.inj (hresolve.symm.trans hnames)
    rw [IsBlocked]
    decide +kernel
  obtain ⟨x, d', hwrite, hleaves, hone⟩ := write_leaves hroot "d/g".toList "y".toList
  exact ⟨hroot, hhidden, hfree, x, d', hwrite, hleaves, hone hhidden hfree⟩

/-- A file is left behind when a directory is written, and one that was hidden there is lost when
its file is written. -/
theorem write_touchesMore :
    let σ : DirectoryStore := ⟨"/w".toList, 100⟩
    sampleTree.find σ.root = .ok ([['w']], .dir) ∧
      (∃ f d', σ.write "d".toList "y".toList sampleTree = (.error f, d') ∧
        ¬ σ.TouchesOne [['w']] "d".toList "y".toList (fun _ => False) sampleTree (.error f) d') ∧
      ∃ d', σ.write "f".toList "y".toList sampleTree = (.ok (), d') ∧
        ¬ σ.TouchesOne [['w']] "f".toList "y".toList (fun _ => False) sampleTree (.ok ()) d' := by
  intro σ
  refine ⟨by decide +kernel, ?_, ?_⟩
  · have hfails : (σ.write "d".toList "y".toList sampleTree).1.toBool = false := by decide +kernel
    have hleft : (σ.write "d".toList "y".toList sampleTree).2.file?
          [['w'], ".d.patchloop.tmp".toList]
        ≠ sampleTree.file? [['w'], ".d.patchloop.tmp".toList] := by
      decide +kernel
    rcases hwrite : σ.write "d".toList "y".toList sampleTree with ⟨f | u, d'⟩
    · rw [hwrite] at hleft
      exact ⟨f, d', rfl, fun h => hleft (h.error f rfl [".d.patchloop.tmp".toList] not_false)⟩
    · rw [hwrite] at hfails
      cases hfails
  · have hdone : (σ.write "f".toList "y".toList sampleTree).1.toBool = true := by decide +kernel
    have hlost : (σ.write "f".toList "y".toList sampleTree).2.file?
          [['w'], ".f.patchloop.tmp".toList]
        ≠ sampleTree.file? [['w'], ".f.patchloop.tmp".toList] := by
      decide +kernel
    have hresolve : resolve "f".toList = .ok [['f']] := by decide +kernel
    rcases hwrite : σ.write "f".toList "y".toList sampleTree with ⟨f | ⟨⟨⟩⟩, d'⟩
    · rw [hwrite] at hdone
      cases hdone
    · rw [hwrite] at hlost
      refine ⟨d', rfl, fun h => ?_⟩
      obtain ⟨names, hnames, -, hothers⟩ := h.ok rfl
      obtain rfl := Except.ok.inj (hresolve.symm.trans hnames)
      exact hlost (hothers [".f.patchloop.tmp".toList] (by decide) not_false)

end DirectoryStore

end Mend
