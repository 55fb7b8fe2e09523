import Mend.Proofs.Disk.Walks
import Mend.Session.TurnLog

/-!
# Folders

A folder is a directory with files, given by the names that lead there from a place. Making the
directories of a path makes those on its way and nothing else (`Disk.makeDirs_makes`), so when the
path to the place leads straight there (`Disk.Direct`), writing a folder puts what it holds below
the place and changes nothing else there (`TurnLog.writeDir_spec`). What stands below a place where
compatible folders were written, and nothing else, is what they hold (`TurnLog.writeDir_below`).
-/

namespace Mend

namespace Disk

variable {d d' d'' : Disk} {path : Text}

/-! ## Making directories -/

theorem destination_trimRight (home : Location) (path : Text) :
    destination home (Path.trimRight path) = destination home path := by
  obtain ⟨hpieces, habsolute⟩ := Path.pieces_trimRight path
  rw [destination, destination, hpieces, habsolute]

/-- Directories are made on the way of a path where nothing stood, and nothing else changes. -/
structure Makes (path : Text) (d d' : Disk) : Prop where
  home : d'.home = d.home
  node? : ∀ place, d'.node? place = d.node? place ∨
    d.node? place = none ∧ d'.node? place = some .dir ∧
      ∃ front, front <+: Path.pieces path ∧ place = destinationFrom (start d.home path) front

namespace Makes

theorem refl (path : Text) (d : Disk) : Makes path d d := ⟨rfl, fun _ => .inl rfl⟩

theorem trans (h : Makes path d d') (h' : Makes path d' d'') : Makes path d d'' where
  home := h'.home.trans h.home
  node? place := by
    rcases h.node? place with hsame | ⟨hnone, hdir, hplace⟩
    · rcases h'.node? place with hsame' | ⟨hnone, hdir, hplace⟩
      · exact .inl (hsame'.trans hsame)
      · rw [h.home] at hplace
        exact .inr ⟨hsame ▸ hnone, hdir, hplace⟩
    · rcases h'.node? place with hsame' | ⟨hnone', -, -⟩
      · exact .inr ⟨hnone, hsame'.trans hdir, hplace⟩
      · exact nomatch hdir.symm.trans hnone'

theorem along {other : Text} (h : Makes path d d') (halong : Path.Along path other) :
    Makes other d d' where
  home := h.home
  node? place := by
    refine (h.node? place).imp_right fun ⟨hnone, hdir, front, hfront, hplace⟩ =>
      ⟨hnone, hdir, front, hfront.trans halong.pieces, ?_⟩
    rw [hplace, start, start, halong.isAbsolute]

theorem dirs (h : Makes path d d') (place : Location) (hdir : d.node? place = some .dir) :
    d'.node? place = some .dir := by
  rcases h.node? place with hsame | ⟨hnone, -, -⟩
  · exact hsame.trans hdir
  · exact nomatch hdir.symm.trans hnone

end Makes

theorem makeDir_makes (h : d.makeDir path = .ok d') : Makes path d d' ∧ d'.Leads path := by
  obtain ⟨hpieces, habsolute⟩ := Path.pieces_trimRight path
  rw [makeDir] at h
  cases hwalk : d.walk (Path.trimRight path) with
  | error e => simp [hwalk] at h
  | ok loc =>
    rw [hwalk] at h
    dsimp only at h
    cases hnode : d.node? loc with
    | some node => simp [hnode] at h
    | none =>
      rw [hnode] at h
      cases h
      obtain rfl : loc = destination d.home path :=
        (destination_of_walk hwalk).trans (destination_trimRight ..)
      have hmakes : Makes path d (d.put (destination d.home path) .dir) := by
        refine ⟨rfl, fun place => ?_⟩
        by_cases hplace : place = destination d.home path
        · subst hplace
          exact .inr ⟨hnode, node?_put_self .., _, List.prefix_refl _, rfl⟩
        · exact .inl (node?_put_ne _ hplace)
      refine ⟨hmakes, fun front hfront => ?_⟩
      by_cases heq : front = Path.pieces path
      · rw [heq]
        exact node?_put_self ..
      · -- what leads there was walked
        have hdir := dirs_of_walk hwalk (hpieces ▸ hfront) (hpieces ▸ heq)
        rw [start, habsolute] at hdir
        exact hmakes.dirs _ hdir

/-- A directory is found. -/
theorem find_of_isDir (h : d.isDir path = true) : ∃ loc, d.find path = .ok (loc, .dir) := by
  rw [isDir] at h
  cases hfind : d.find path with
  | error e => simp [hfind, Except.toOption] at h
  | ok found =>
    obtain ⟨loc, node⟩ := found
    obtain rfl : node = .dir := by simpa [hfind, Except.toOption] using h
    exact ⟨loc, rfl⟩

/-- A path that is found to be a directory leads there. -/
theorem leads_of_isDir (h : d.isDir path = true) : d.Leads path := by
  obtain ⟨loc, hfind⟩ := find_of_isDir h
  exact leads_of_find hfind

/-- When the directories of a path are made, the last of them is made, or is there. -/
theorem makeDir_or_isDir_of_makeDirsFrom {fuel : Nat} {made : Disk} (hne : path ≠ [])
    (h : makeDirsFrom fuel d path = (.ok made, d')) :
    (∃ m : Disk, m.makeDir path = .ok d') ∨ d'.isDir path = true := by
  cases fuel with
  | zero => cases h
  | succ fuel =>
    rw [makeDirsFrom, if_neg (fun hempty => hne (List.isEmpty_iff.1 hempty))] at h
    split at h
    · rename_i hmake
      cases h
      exact .inl ⟨_, hmake⟩
    · split at h
      · cases h
      split at h
      · cases h
      split at h
      · rename_i hmake
        cases h
        exact .inl ⟨_, hmake⟩
      · split at h
        · rename_i hdir
          cases h
          exact .inr hdir
        · cases h
    · split at h
      · rename_i hdir
        cases h
        exact .inr hdir
      · cases h

theorem makeDir_or_isDir (hne : path ≠ []) (h : d.makeDirs path = (.ok (), d')) :
    (∃ m : Disk, m.makeDir path = .ok d') ∨ d'.isDir path = true := by
  rw [makeDirs] at h
  rcases hmake : makeDirsFrom (path.length + 1) d path with ⟨e | made, d₁⟩
  · rw [hmake] at h
    cases h
  · rw [hmake] at h
    cases h
    exact makeDir_or_isDir_of_makeDirsFrom hne hmake

/-- Making the directories of a path makes those on its way, and then the path leads there. -/
theorem makeDirs_makes {x : Except DiskError Unit} (h : d.makeDirs path = (x, d')) :
    Makes path d d' ∧ (x = .ok () → path ≠ [] → d'.Leads path) := by
  have hmakes : RelatesMaking Makes :=
    ⟨.refl, fun hmake => (makeDir_makes hmake).1,
      fun habove hmade => hmade.along (Path.along_parent? habove), .trans⟩
  refine ⟨hmakes.makeDirs h, fun hok hne => ?_⟩
  subst hok
  rcases makeDir_or_isDir hne h with ⟨m, hmake⟩ | hdir
  · exact (makeDir_makes hmake).2
  · exact leads_of_isDir hdir

/-- A directory that was made is found. -/
theorem find_of_makeDirs (htrim : Path.trimRight path = path) (hne : path ≠ [])
    (h : d.makeDirs path = (.ok (), d')) : ∃ loc, d'.find path = .ok (loc, .dir) := by
  rcases makeDir_or_isDir hne h with ⟨m, hmake⟩ | hdir
  · have hkeeps := makeDir_keeps hmake
    rw [makeDir, htrim] at hmake
    split at hmake
    · cases hmake
    rename_i loc hwalk
    split at hmake
    · cases hmake
    cases hmake
    exact ⟨loc, find_eq_ok.2 ⟨hkeeps.walk hwalk, node?_put_self ..⟩⟩
  · exact find_of_isDir hdir

/-- A directory that is there need not be made. -/
theorem makeDirs_of_isDir (h : d.isDir path = true) : d.makeDirs path = (.ok (), d) := by
  obtain ⟨loc, hfind⟩ := find_of_isDir h
  obtain ⟨hwalk, hnode⟩ := find_eq_ok.1 hfind
  have hmake : d.makeDir path = .error .occupied := by
    rw [makeDir, walk_trimRight hwalk]
    dsimp only
    rw [hnode]
  rw [makeDirs, makeDirsFrom, hmake]
  dsimp only
  rw [if_pos h, ite_self]

/-! ## Writing and moving files -/

/-- Where no directory stands, the path does not ask for one. -/
theorem getLast?_ne_slash {loc : Location} (hwalk : d.walk path = .ok loc)
    (hnode : d.node? loc ≠ some .dir) : path.getLast? ≠ some Path.slash := by
  intro hslash
  rw [walk_eq] at hwalk
  split at hwalk
  · cases hwalk
  rw [steps, if_pos hslash] at hwalk
  have hdir := dirs_of_walkFrom hwalk (List.prefix_append ..) (by simp)
  rw [destinationFrom_of_walkFrom hwalk, destinationFrom_append] at hnode
  exact hnode hdir

/-- A file is put where its path leads, unless a directory stands there. -/
theorem writeBytes_eq_ok {data : ByteArray} : d.writeBytes path data = .ok d' ↔
    ∃ loc, d.walk path = .ok loc ∧ d.node? loc ≠ some .dir ∧ d' = d.put loc (.file data) := by
  by_cases hslash : path.getLast? = some Path.slash
  · constructor
    · intro h
      rw [writeBytes] at h
      split at h
      · cases h
      · rw [if_pos hslash] at h
        cases h
    · rintro ⟨loc, hwalk, hnode, -⟩
      exact absurd hslash (getLast?_ne_slash hwalk hnode)
  · rw [writeBytes, Path.trimRight_eq_self hslash]
    cases d.walk path with
    | error e => simp
    | ok loc =>
      dsimp only
      rw [if_neg hslash]
      split
      · rename_i hdir
        simp [hdir]
      · rename_i hfree
        constructor
        · intro h
          exact ⟨loc, rfl, hfree, (Except.ok.inj h).symm⟩
        · rintro ⟨loc', hloc, -, rfl⟩
          cases hloc
          rfl

/-- A file is moved to where a path leads, unless a directory stands there. -/
theorem rename_eq_ok {source target : Text} : d.rename source target = .ok d' ↔
    ∃ loc node dest, d.find source = .ok (loc, node) ∧ d.walk target = .ok dest ∧
      d.node? dest ≠ some .dir ∧ d' = (d.remove loc).put dest node := by
  by_cases hslash : target.getLast? = some Path.slash
  · constructor
    · intro h
      rw [rename] at h
      split at h
      · cases h
      · cases h
      · rw [if_pos hslash] at h
        cases h
    · rintro ⟨-, -, dest, -, hwalk, hnode, -⟩
      exact absurd hslash (getLast?_ne_slash hwalk hnode)
  · rw [rename, Path.trimRight_eq_self hslash]
    cases d.find source with
    | error e => simp
    | ok found =>
      cases d.walk target with
      | error e => simp
      | ok dest =>
        dsimp only
        rw [if_neg hslash]
        split
        · rename_i hdir
          simp [hdir]
        · rename_i hfree
          constructor
          · intro h
            exact ⟨_, _, dest, rfl, rfl, hfree, (Except.ok.inj h).symm⟩
          · rintro ⟨loc, node, dest', hfound, hdest, -, rfl⟩
            cases hfound
            cases hdest
            rfl

/-- A file that is moved after it was written has its bytes. -/
theorem find_of_rename {source target : Text} {data : ByteArray}
    (hwrite : d.writeBytes source data = .ok d') (hrename : d'.rename source target = .ok d'') :
    ∃ loc, d''.find target = .ok (loc, .file data) := by
  obtain ⟨loc, hwalk, hfree, rfl⟩ := writeBytes_eq_ok.1 hwrite
  have hput : Keeps (· = loc) d (d.put loc (.file data)) := .put hfree
  have hdata := node?_put_self d loc (.file data)
  obtain ⟨dest, hdest, hkeeps, hnode⟩ := rename_spec (hput.walk hwalk) hdata hrename
  obtain ⟨-, -, dest', -, htarget, hfree', -⟩ := rename_eq_ok.1 hrename
  rw [Path.trimRight_eq_self (getLast?_ne_slash htarget hfree')] at hdest
  exact ⟨dest, find_eq_ok.2 ⟨hkeeps.walk hdest, hnode⟩⟩

/-- A file that was written can be moved to where no directory stands. -/
theorem exists_rename {source target : Text} {data : ByteArray} {loc : Location}
    (hwrite : d.writeBytes source data = .ok d') (hwalk : d.walk target = .ok loc)
    (hfree : d.node? loc ≠ some .dir) : ∃ d'', d'.rename source target = .ok d'' := by
  obtain ⟨place, hsource, hplace, rfl⟩ := writeBytes_eq_ok.1 hwrite
  have hput : Keeps (· = place) d (d.put place (.file data)) := .put hplace
  have hfree' : (d.put place (.file data)).node? loc ≠ some .dir := by
    by_cases heq : loc = place
    · rw [heq, node?_put_self]
      nofun
    · rwa [node?_put_ne _ heq]
  have hfind := find_eq_ok.2 ⟨hput.walk hsource, node?_put_self ..⟩
  exact ⟨_, rename_eq_ok.2 ⟨_, _, loc, hfind, hput.walk hwalk, hfree', rfl⟩⟩

theorem eq_put_of_writeBytes {data : ByteArray} (h : d.writeBytes path data = .ok d') :
    d' = d.put (destination d.home path) (.file data) ∧
      d.node? (destination d.home path) ≠ some .dir := by
  obtain ⟨loc, hwalk, hnode, rfl⟩ := writeBytes_eq_ok.1 h
  rw [← destination_of_walk hwalk]
  exact ⟨rfl, hnode⟩

/-! ## Straight paths -/

/-- A path that leads to a directory, or goes nowhere else on its way. -/
def Direct (d : Disk) (path : Text) : Prop :=
  (∃ loc, d.find path = .ok (loc, .dir)) ∨ ['.', '.'] ∉ Path.pieces path

/-- Without two points, pieces lead further only. -/
theorem prefix_destinationFrom {pieces : List Text} (h : ['.', '.'] ∉ pieces) (loc : Location) :
    loc <+: destinationFrom loc pieces := by
  induction pieces generalizing loc with
  | nil => exact List.prefix_refl _
  | cons piece rest ih =>
    rw [List.mem_cons, not_or] at h
    rw [destinationFrom, if_neg (Ne.symm h.1)]
    split
    · exact ih h.2 loc
    · exact (List.prefix_append ..).trans (ih h.2 (loc ++ [piece]))

namespace Direct

/-- On the way there are directories, or places above the one where the path leads. -/
theorem places (h : d.Direct path) {front : List Text} (hfront : front <+: Path.pieces path) :
    d.node? (destinationFrom (start d.home path) front) = some .dir ∨
      destinationFrom (start d.home path) front <+: destination d.home path := by
  rcases h with ⟨loc, hfind⟩ | hup
  · exact .inl (leads_of_find hfind front hfront)
  · obtain ⟨rest, hrest⟩ := hfront
    have hdest : destination d.home path
        = destinationFrom (destinationFrom (start d.home path) front) rest := by
      rw [← destinationFrom_append, hrest]
      rfl
    rw [hdest]
    exact .inr (prefix_destinationFrom (fun hmem => hup (hrest ▸ List.mem_append_right _ hmem)) _)

/-- So it is when there are more directories. -/
theorem of_keeps {touched : Location → Prop} (h : d.Direct path) (hkeeps : Keeps touched d d') :
    d'.Direct path :=
  h.imp_left fun ⟨loc, hfind⟩ => ⟨loc, hkeeps.find hfind⟩

end Direct

section Names

variable {dir : Text} {names rest : List Text} (hnames : ∀ name ∈ names, Path.IsName name)

include hnames

/-- When the path of a directory leads on to names, these lead to directories below it. -/
theorem Leads.foldl_join (h : d.Leads (names.foldl Path.join dir)) (hrest : rest <+: names) :
    d.node? (destination d.home dir ++ rest) = some .dir := by
  have hdir := h (Path.pieces dir ++ rest) (by
    rw [Path.pieces_foldl_join hnames]
    exact (List.prefix_append_right_inj _).2 hrest)
  rw [destinationFrom_append, Path.destinationFrom_names fun name hname =>
    hnames name (hrest.subset hname), start, Path.isAbsolute_foldl_join hnames] at hdir
  exact hdir

/-- What is made on the way of names below a directory is on the way of the directory, or below it
on the way of the names. -/
theorem Makes.cases_foldl_join (h : Makes (names.foldl Path.join dir) d d') (place : Location) :
    d'.node? place = d.node? place ∨ d.node? place = none ∧ d'.node? place = some .dir ∧
      ((∃ front, front <+: Path.pieces dir ∧ place = destinationFrom (start d.home dir) front) ∨
        ∃ rest, rest ≠ [] ∧ rest <+: names ∧ place = destination d.home dir ++ rest) := by
  refine (h.node? place).imp_right fun ⟨hnone, hmade, front, hfront, hplace⟩ =>
    ⟨hnone, hmade, ?_⟩
  rw [start, Path.isAbsolute_foldl_join hnames, ← start] at hplace
  rw [Path.pieces_foldl_join hnames] at hfront
  rcases List.prefix_or_prefix_of_prefix hfront (List.prefix_append ..) with
    habove | ⟨rest, rfl⟩
  · exact .inl ⟨front, habove, hplace⟩
  by_cases hne : rest = []
  · exact .inl ⟨_, by simp [hne], hplace⟩
  · have hrest := (List.prefix_append_right_inj _).1 hfront
    rw [destinationFrom_append, Path.destinationFrom_names fun name hname =>
      hnames name (hrest.subset hname)] at hplace
    exact .inr ⟨rest, hne, hrest, hplace⟩

/-- Making the directories to names below a directory changes nothing else below it, when its path
is straight. -/
theorem Makes.node?_below (h : Makes (names.foldl Path.join dir) d d') (hdirect : d.Direct dir)
    (hne : rest ≠ []) (hrest : ¬ rest <+: names) :
    d'.node? (destination d.home dir ++ rest) = d.node? (destination d.home dir ++ rest) := by
  rcases h.cases_foldl_join hnames (destination d.home dir ++ rest) with
    hsame | ⟨hnone, -, ⟨front, hfront, hplace⟩ | ⟨more, -, hmore, hplace⟩⟩
  · exact hsame
  · exfalso
    rcases hdirect.places hfront with hdir | habove
    · rw [← hplace, hnone] at hdir
      cases hdir
    · rw [← hplace] at habove
      have hlength := habove.length_le
      rw [List.length_append] at hlength
      exact hne (List.length_eq_zero_iff.1 (by omega))
  · obtain rfl : rest = more := List.append_cancel_left hplace
    exact absurd hmore hrest

end Names

end Disk

/-! ## Writing folders -/

/-- A directory with files: the names that lead there, and the files with their contents. -/
structure Folder where
  /-- The names that lead to the directory. -/
  names : List Text
  /-- The files with their contents. -/
  files : List (Text × Text)

namespace Folder

/-- What a folder holds, by the names that lead there: directories that lead to it, and files. -/
inductive Holds (f : Folder) : List Text → DiskNode → Prop
  | dir {rest : List Text} (h : rest <+: f.names) (hne : rest ≠ []) : Holds f rest .dir
  | file {name content : Text} (h : (name, content) ∈ f.files) :
    Holds f (f.names ++ [name]) (.file content.toBytes)

/-- A folder that can be written: names are between slashes, and every file has its own. -/
structure IsProper (f : Folder) : Prop where
  names_ne_nil : f.names ≠ []
  isName_names : ∀ name ∈ f.names, Path.IsName name
  isName_files : ∀ file ∈ f.files, Path.IsName file.1
  nodup : (f.files.map Prod.fst).Nodup

/-- Folders that hold nothing different by the same names. -/
def Compatible (f g : Folder) : Prop :=
  ∀ rest node node', f.Holds rest node → g.Holds rest node' → node = node'

/-- Folders are compatible when no file of one is on the way to the other one or a file there. -/
theorem compatible_of_files {f g : Folder}
    (hf : ∀ file ∈ f.files, ¬ f.names ++ [file.1] <+: g.names)
    (hg : ∀ file ∈ g.files, ¬ g.names ++ [file.1] <+: f.names)
    (hfiles : ∀ file ∈ f.files, ∀ file' ∈ g.files, f.names ++ [file.1] ≠ g.names ++ [file'.1]) :
    f.Compatible g := by
  intro rest node node' hold hold'
  cases hold with
  | dir hrest hne =>
    cases hold' with
    | dir hrest' hne' => rfl
    | file hfile' => exact absurd hrest (hg _ hfile')
  | @file name content hfile =>
    generalize heq : f.names ++ [name] = rest at hold'
    cases hold' with
    | dir hrest' hne' => exact absurd (heq ▸ hrest') (hf _ hfile)
    | file hfile' => exact absurd heq (hfiles _ hfile _ hfile')

end Folder

/-- What stands below a place is what folders hold. -/
def Disk.Below (d : Disk) (loc : Location) (folders : List Folder) : Prop :=
  ∀ rest node, rest ≠ [] → (d.node? (loc ++ rest) = some node ↔ ∃ f ∈ folders, f.Holds rest node)

namespace TurnLog

variable {d d' : Disk}

/-- Writing files puts them into their directory, and nothing else changes. -/
theorem writeFiles_spec {dir : Text} {files : List (Text × Text)}
    (hnames : ∀ file ∈ files, Path.IsName file.1) (hnodup : (files.map Prod.fst).Nodup)
    (h : writeFiles dir files d = (.ok (), d')) :
    Disk.Keeps (fun _ => True) d d' ∧
      (∀ file ∈ files, d'.node? (Disk.destination d.home dir ++ [file.1])
        = some (.file file.2.toBytes)) ∧
      ∀ place, (∀ file ∈ files, place ≠ Disk.destination d.home dir ++ [file.1]) →
        d'.node? place = d.node? place := by
  induction files generalizing d with
  | nil =>
    cases h
    exact ⟨.refl _, by simp, fun _ _ => rfl⟩
  | cons file rest ih =>
    obtain ⟨name, content⟩ := file
    rw [List.forall_mem_cons] at hnames
    rw [List.map_cons, List.nodup_cons] at hnodup
    rw [writeFiles] at h
    cases hwrite : d.writeText (Path.join dir name) content with
    | error e => simp [hwrite] at h
    | ok d₁ =>
      rw [hwrite] at h
      obtain ⟨hput, hfree⟩ := Disk.eq_put_of_writeBytes hwrite
      rw [hnames.1.destination_join] at hput hfree
      have hhome : d₁.home = d.home := by
        rw [hput]
        rfl
      obtain ⟨hkeeps, hfiles, hothers⟩ := ih hnames.2 hnodup.2 h
      rw [hhome] at hfiles hothers
      have hfirst : Disk.Keeps (fun _ => True) d d₁ := by
        rw [hput]
        exact (Disk.Keeps.put hfree).mono fun _ _ => trivial
      refine ⟨hfirst.trans hkeeps, List.forall_mem_cons.2 ⟨?_, hfiles⟩, fun place hplace => ?_⟩
      · -- no later file has the name of the first one
        rw [hothers, hput, Disk.node?_put_self]
        intro file hfile heq
        have hname : name = file.1 := by simpa using heq
        exact hnodup.1 (List.mem_map.2 ⟨file, hfile, hname.symm⟩)
      · rw [List.forall_mem_cons] at hplace
        rw [hothers place hplace.2, hput, Disk.node?_put_ne _ hplace.1]

/-- Writing a folder below a place leaves the folder there, and nothing else changes below it. -/
theorem writeDir_spec {doing : String} {dir : Text} {f : Folder} (hf : f.IsProper)
    (hdirect : d.Direct dir)
    (h : writeDir doing (f.names.foldl Path.join dir) f.files d = (.ok (), d')) :
    Disk.Keeps (fun _ => True) d d' ∧
      (∀ rest node, f.Holds rest node →
        d'.node? (Disk.destination d.home dir ++ rest) = some node) ∧
      ∀ rest, rest ≠ [] → (∀ node, ¬ f.Holds rest node) →
        d'.node? (Disk.destination d.home dir ++ rest)
          = d.node? (Disk.destination d.home dir ++ rest) := by
  obtain ⟨hne, hnames, hfiles, hnodup⟩ := hf
  rw [writeDir] at h
  split at h
  · rename_i u d₁ hmake
    obtain ⟨hmakes, hleads⟩ := Disk.makeDirs_makes hmake
    have hpath : f.names.foldl Path.join dir ≠ [] := by
      intro hnil
      have hpieces := Path.pieces_foldl_join hnames dir
      rw [hnil] at hpieces
      exact hne (List.append_eq_nil_iff.1 hpieces.symm).2
    obtain ⟨hkeeps, hwritten, hothers⟩ := writeFiles_spec hfiles hnodup h
    rw [Path.destination_foldl_join hnames, hmakes.home] at hwritten hothers
    refine ⟨((Disk.makeDirs_keeps hmake).mono fun _ => False.elim).trans hkeeps, ?_, ?_⟩
    · rintro rest node (⟨hrest, -⟩ | hfile)
      · have hdir := (hleads rfl hpath).foldl_join hnames hrest
        rw [hmakes.home] at hdir
        exact hkeeps.dirs _ hdir
      · rw [← List.append_assoc]
        exact hwritten _ hfile
    · intro rest hrest hnot
      have hnofile : ∀ file ∈ f.files, Disk.destination d.home dir ++ rest
          ≠ Disk.destination d.home dir ++ f.names ++ [file.1] := by
        intro file hfile heq
        rw [List.append_assoc, List.append_cancel_left_eq] at heq
        exact hnot _ (by rw [heq]; exact Folder.Holds.file hfile)
      rw [hothers _ hnofile]
      exact hmakes.node?_below hnames hdirect hrest fun hway => hnot .dir (.dir hway hrest)
  · cases h

/-- Writing a folder below a place adds it to the folders there, when they are compatible. -/
theorem writeDir_below {doing : String} {dir : Text} {folders : List Folder} {f : Folder}
    (hf : f.IsProper) (hdirect : d.Direct dir)
    (hbelow : d.Below (Disk.destination d.home dir) folders)
    (hcompatible : ∀ g ∈ folders, f.Compatible g)
    (h : writeDir doing (f.names.foldl Path.join dir) f.files d = (.ok (), d')) :
    Disk.Keeps (fun _ => True) d d' ∧
      d'.Below (Disk.destination d.home dir) (folders ++ [f]) := by
  obtain ⟨hkeeps, hheld, hothers⟩ := writeDir_spec hf hdirect h
  refine ⟨hkeeps, fun rest node hrest => ?_⟩
  simp only [List.mem_append, List.mem_singleton, or_and_right, exists_or, exists_eq_left]
  by_cases hnew : ∃ node', f.Holds rest node'
  · obtain ⟨node', hnew⟩ := hnew
    rw [hheld rest node' hnew, Option.some_inj]
    constructor
    · rintro rfl
      exact .inr hnew
    · rintro (⟨g, hg, hold⟩ | hagain)
      · exact hcompatible g hg rest node' node hnew hold
      · have hsame := (hheld rest node' hnew).symm.trans (hheld rest node hagain)
        exact Option.some.inj hsame
  · have hnot : ∀ node', ¬ f.Holds rest node' := not_exists.1 hnew
    rw [hothers rest hrest hnot, hbelow rest node hrest]
    exact (or_iff_left (hnot node)).symm

end TurnLog

end Mend
