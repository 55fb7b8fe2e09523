import Mend.Proofs.Disk.Destinations
import Mend.Proofs.Text.Lines
import Mend.Store.Directory

/-!
# What a working directory keeps

The names that a path leads to below a working directory (`DirectoryStore.resolve`) are names
between slashes that are no points, so a file is where the names lead from the directory
(`DirectoryStore.destination_fullPath`). A write touches hidden files, and its own file when it
succeeds: then the file has the content (`DirectoryStore.write_spec`). What is read under another
path that leads elsewhere stays as it is (`DirectoryStore.readText_of_write`).
-/

namespace Mend

namespace Path

/-- A name between slashes that is no point. -/
structure IsName (name : Text) : Prop where
  ne_nil : name ≠ []
  ne_current : name ≠ ['.']
  ne_up : name ≠ ['.', '.']
  slash_notMem : slash ∉ name

instance (name : Text) : Decidable (IsName name) :=
  decidable_of_iff (name ≠ [] ∧ name ≠ ['.'] ∧ name ≠ ['.', '.'] ∧ slash ∉ name)
    ⟨fun ⟨h₁, h₂, h₃, h₄⟩ => ⟨h₁, h₂, h₃, h₄⟩, fun ⟨h₁, h₂, h₃, h₄⟩ => ⟨h₁, h₂, h₃, h₄⟩⟩

theorem mem_of_within? {ps : List PathPart} {names : List Text} (h : within? ps = some names)
    {name : Text} (hname : name ∈ names) : .name name ∈ ps := by
  induction ps generalizing names with
  | nil =>
    cases h
    cases hname
  | cons p rest ih =>
    cases p with
    | root => cases h
    | up => cases h
    | current =>
      rw [within?] at h
      exact List.mem_cons_of_mem _ (ih h hname)
    | name t =>
      rw [within?, Option.map_eq_some_iff] at h
      obtain ⟨more, hmore, rfl⟩ := h
      rcases List.mem_cons.1 hname with rfl | hname
      · exact List.mem_cons_self ..
      · exact List.mem_cons_of_mem _ (ih hmore hname)

theorem isName_of_mem_parts {path name : Text} (h : .name name ∈ parts path) : IsName name := by
  rw [parts, List.mem_append] at h
  rcases h with h | h
  · -- what stands in front is no name
    split at h
    · simp at h
    · split at h <;> simp at h
  · obtain ⟨piece, hpiece, hpart⟩ := List.mem_filterMap.1 h
    rw [part?] at hpart
    split at hpart
    · cases hpart
    rename_i hpoint
    split at hpart
    · cases hpart
    rename_i hup
    cases hpart
    rw [Bool.or_eq_true, not_or, decide_eq_true_iff, List.isEmpty_iff] at hpoint
    exact ⟨hpoint.1, hpoint.2, hup, Text.sep_notMem_of_mem_splitOn hpiece⟩

/-! ## Paths that end in a name -/

/-- A path that ends with something else than a slash is not shortened. -/
theorem trimRight_concat {c : Char} (hc : c ≠ slash) (front : Text) :
    trimRight (front ++ [c]) = front ++ [c] := by
  have hkept : Text.dropEndWhile (· == slash) (front ++ [c]) = front ++ [c] := by
    rw [Text.dropEndWhile, List.reverse_append, List.reverse_singleton, List.singleton_append,
      List.dropWhile_cons_of_neg (by simpa using hc), List.reverse_cons, List.reverse_reverse]
  rw [trimRight, hkept]
  split
  · rename_i heq _
    exact absurd heq (by simp)
  · rfl

theorem trimRight_eq_self {path : Text} (h : path.getLast? ≠ some slash) :
    trimRight path = path := by
  rcases List.eq_nil_or_concat path with rfl | ⟨front, c, rfl⟩
  · rfl
  · rw [List.concat_eq_append] at h ⊢
    exact trimRight_concat (fun hc => h (by simp [hc])) front

section Name

variable {name : Text} (hname : IsName name) (base : Text)

include hname

theorem IsName.isAbsolute_eq_false : isAbsolute name = false := by
  cases name with
  | nil => rfl
  | cons c t =>
    have hc : c ≠ slash := fun heq => hname.slash_notMem (heq ▸ List.mem_cons_self ..)
    simpa [isAbsolute] using hc

theorem IsName.pieces_eq : pieces name = [name] := by
  have hsplit : name.splitOn slash = [name] := List.splitOn_eq_singleton hname.slash_notMem
  have hne := hname.ne_nil
  simp [pieces, hsplit, hne]

/-- A name is put behind its base, and a slash between them if there is none. -/
theorem IsName.exists_join : ∃ front, (front = [] ∨ front.getLast? = some slash) ∧
    join base name = front ++ name ∧ pieces front = pieces base ∧
    isAbsolute front = isAbsolute base := by
  rw [join, hname.isAbsolute_eq_false, if_neg Bool.false_ne_true]
  split
  · rename_i hend
    refine ⟨base, ?_, rfl, rfl, rfl⟩
    rw [Bool.or_eq_true, List.isEmpty_iff, decide_eq_true_iff] at hend
    exact hend
  · rename_i hend
    rw [Bool.or_eq_true, List.isEmpty_iff, decide_eq_true_iff, not_or] at hend
    refine ⟨base ++ [slash], .inr (by simp), by simp, ?_, ?_⟩
    · simp [pieces, Text.splitOn_append_cons]
    · cases base with
      | nil => exact absurd rfl hend.1
      | cons c t => rfl

theorem IsName.pieces_join : pieces (join base name) = pieces base ++ [name] := by
  obtain ⟨front, hend, hjoin, hpieces, -⟩ := hname.exists_join base
  rw [hjoin, ← hpieces]
  rcases hend with rfl | hend
  · rw [List.nil_append, hname.pieces_eq]
    simp [pieces]
  · obtain ⟨f, rfl⟩ := List.getLast?_eq_some_iff.1 hend
    rw [List.append_assoc, List.singleton_append, pieces, Text.splitOn_append_cons,
      List.filter_append, ← pieces, ← pieces, hname.pieces_eq]
    simp [pieces, Text.splitOn_append_cons]

theorem IsName.isAbsolute_join : isAbsolute (join base name) = isAbsolute base := by
  obtain ⟨front, -, hjoin, -, habsolute⟩ := hname.exists_join base
  rw [hjoin, ← habsolute]
  cases front with
  | nil => exact hname.isAbsolute_eq_false
  | cons c f => rfl

/-- No slash ends a path that ends in a name. -/
theorem IsName.getLast?_join : (join base name).getLast? ≠ some slash := by
  obtain ⟨front, -, hjoin, -⟩ := hname.exists_join base
  obtain ⟨init, last, hlast⟩ : ∃ init last, name = init ++ [last] :=
    ⟨_, _, (List.dropLast_concat_getLast hname.ne_nil).symm⟩
  rw [hjoin, hlast, ← List.append_assoc, List.getLast?_concat]
  rintro ⟨⟩
  exact hname.slash_notMem (hlast ▸ List.mem_append_right _ (List.mem_singleton_self _))

theorem IsName.trimRight_join : trimRight (join base name) = join base name :=
  trimRight_eq_self (hname.getLast?_join base)

/-- A name leads one step further. -/
theorem IsName.destination_join (home : Location) :
    Disk.destination home (join base name) = Disk.destination home base ++ [name] := by
  rw [Disk.destination, hname.pieces_join base, hname.isAbsolute_join base,
    Disk.destinationFrom_append, Disk.destinationFrom, if_neg hname.ne_current,
    if_neg hname.ne_up]
  rfl

end Name

section Names

variable {names : List Text} (h : ∀ name ∈ names, IsName name) (base : Text)

include h

theorem pieces_foldl_join : pieces (names.foldl join base) = pieces base ++ names := by
  induction names generalizing base with
  | nil => exact (List.append_nil _).symm
  | cons name rest ih =>
    rw [List.forall_mem_cons] at h
    rw [List.foldl_cons, ih h.2, h.1.pieces_join, List.append_assoc, List.singleton_append]

theorem isAbsolute_foldl_join : isAbsolute (names.foldl join base) = isAbsolute base := by
  induction names generalizing base with
  | nil => rfl
  | cons name rest ih =>
    rw [List.forall_mem_cons] at h
    rw [List.foldl_cons, ih h.2, h.1.isAbsolute_join]

/-- Names lead further, one after the other. -/
theorem destinationFrom_names (loc : Location) : Disk.destinationFrom loc names = loc ++ names := by
  induction names generalizing loc with
  | nil => exact (List.append_nil _).symm
  | cons name rest ih =>
    rw [List.forall_mem_cons] at h
    rw [Disk.destinationFrom, if_neg h.1.ne_current, if_neg h.1.ne_up, ih h.2, List.append_assoc,
      List.singleton_append]

theorem destination_foldl_join (home : Location) :
    Disk.destination home (names.foldl join base) = Disk.destination home base ++ names := by
  rw [Disk.destination, pieces_foldl_join h, isAbsolute_foldl_join h, Disk.destinationFrom_append,
    destinationFrom_names h]
  rfl

end Names

end Path

namespace DirectoryStore

variable {σ : DirectoryStore} {path content : Text} {names : List Text} {d d' : Disk}

theorem isName_of_resolve (h : resolve path = .ok names) : ∀ name ∈ names, Path.IsName name := by
  rw [resolve] at h
  split at h
  · rename_i found hwithin
    cases h
    exact fun name hname => Path.isName_of_mem_parts (Path.mem_of_within? hwithin hname)
  · cases h

/-- Where the file is that names lead to. -/
theorem destination_fullPath (home : Location) (h : ∀ name ∈ names, Path.IsName name) :
    Disk.destination home (σ.fullPath names) = Disk.destination home σ.root ++ names :=
  Path.destination_foldl_join h σ.root home

theorem trimRight_fullPath (h : ∀ name ∈ names, Path.IsName name) (hne : names ≠ []) :
    Path.trimRight (σ.fullPath names) = σ.fullPath names := by
  obtain ⟨front, last, rfl⟩ : ∃ front last, names = front ++ [last] :=
    ⟨_, _, (List.dropLast_concat_getLast hne).symm⟩
  rw [fullPath, List.foldl_append]
  exact (h last (by simp)).trimRight_join _

theorem isName_temporaryName {name : Text} (h : Path.IsName name) :
    Path.IsName (temporaryName name) where
  ne_nil := List.cons_ne_nil _ _
  -- the suffix alone is longer than points
  ne_current heq := by simpa [temporaryName] using congrArg List.length heq
  ne_up heq := by simpa [temporaryName] using congrArg List.length heq
  slash_notMem hmem := h.slash_notMem (by simpa [temporaryName, Path.slash] using hmem)

/-- What is read is the file that the names lead to. -/
theorem exists_readText_of_read (h : σ.read path d = .ok (some content)) :
    ∃ names, resolve path = .ok names ∧ d.readText (σ.fullPath names) = .ok content := by
  rw [read] at h
  split at h
  · cases h
  rename_i names hresolve
  refine ⟨names, hresolve, ?_⟩
  dsimp only at h
  split at h
  · cases h
  split at h
  · cases h
  rename_i data hdata
  split at h
  · cases h
  split at h
  · rename_i t htext
    cases h
    rw [Disk.readText, hdata]
    dsimp only
    rw [htext]
  · cases h

/-- The places of hidden files that writes go through. -/
def Temporary (loc : Location) : Prop := ∃ name, loc.getLast? = some (temporaryName name)

/-- The hidden file is written where its name says. -/
theorem writeText_temporary {name : Text} (hname : Path.IsName name) {parent : Text}
    (h : d.writeText (Path.join parent (temporaryName name)) content = .ok d') :
    ∃ loc, Temporary loc ∧ Disk.Keeps (· = loc) d d' ∧
      d'.walk (Path.join parent (temporaryName name)) = .ok loc ∧
      d'.node? loc = some (.file content.toBytes) := by
  have htemporary := isName_temporaryName hname
  obtain ⟨loc, hwalk, hkeeps, hnode⟩ := Disk.writeBytes_spec h
  rw [htemporary.trimRight_join] at hwalk
  refine ⟨loc, ⟨name, ?_⟩, hkeeps, hkeeps.walk hwalk, hnode⟩
  rw [Disk.destination_of_walk hwalk, htemporary.destination_join, List.getLast?_concat]

/-- The hidden file takes the place of the file. -/
theorem rename_fullPath {temporary : Text} {loc : Location}
    (hnames : ∀ name ∈ names, Path.IsName name) (hne : names ≠ [])
    (hwalk : d.walk temporary = .ok loc) (hnode : d.node? loc = some (.file content.toBytes))
    (h : d.rename temporary (σ.fullPath names) = .ok d') :
    Disk.Keeps (fun l => l = loc ∨ l = Disk.destination d.home σ.root ++ names) d d' ∧
      d'.readText (σ.fullPath names) = .ok content := by
  obtain ⟨dest, hdest, hkeeps, hnode'⟩ := Disk.rename_spec hwalk hnode h
  rw [trimRight_fullPath hnames hne] at hdest
  have hplace := Disk.destination_of_walk hdest
  rw [destination_fullPath d.home hnames] at hplace
  refine ⟨hplace ▸ hkeeps, ?_⟩
  exact Disk.readText_eq_ok.2 ⟨dest, _, hkeeps.walk hdest, hnode', Text.ofBytes?_toBytes content⟩

/-- A write touches hidden files and the file itself, if it succeeds; then the file has the
content. -/
theorem write_spec (hresolve : resolve path = .ok names) {x : Except Failure Unit}
    (h : σ.write path content d = (x, d')) :
    Disk.Keeps (fun loc => Temporary loc ∨
        x = .ok () ∧ loc = Disk.destination d.home σ.root ++ names) d d' ∧
      (x = .ok () → d'.readText (σ.fullPath names) = .ok content) := by
  have hnames := isName_of_resolve hresolve
  rw [write, hresolve] at h
  dsimp only at h
  cases hlast : names.getLast? with
  | none =>
    rw [hlast] at h
    cases h
    exact ⟨.refl d, nofun⟩
  | some name =>
    rw [hlast] at h
    dsimp only at h
    have hname : Path.IsName name := hnames name (List.mem_of_getLast? hlast)
    have hne : names ≠ [] := by
      rintro rfl
      cases hlast
    rcases hdirs : d.makeDirs ((Path.parent? (σ.fullPath names)).getD []) with ⟨made, d₁⟩
    have hmade : Disk.Keeps (fun loc => Temporary loc ∨ x = .ok () ∧
        loc = Disk.destination d.home σ.root ++ names) d d₁ :=
      (Disk.makeDirs_keeps hdirs).mono fun _ => False.elim
    rw [hdirs] at h
    rcases made with e | ⟨⟨⟩⟩
    · cases h
      exact ⟨hmade, nofun⟩
    dsimp only at h
    -- where the parent is does not matter: the hidden file is known by the end of its path
    split at h
    · cases h
      exact ⟨hmade, nofun⟩
    rename_i d₂ hwrite
    obtain ⟨loc, hloc, htemporary, hwalk, hnode⟩ := writeText_temporary hname hwrite
    have hwritten := hmade.trans (htemporary.mono fun l hl => .inl (hl ▸ hloc))
    split at h
    · cases h
      exact ⟨hwritten, nofun⟩
    rename_i d₃ hrename
    cases h
    -- only now the file itself is touched
    obtain ⟨hreplaced, hread⟩ := rename_fullPath hnames hne hwalk hnode hrename
    rw [hwritten.home] at hreplaced
    refine ⟨hwritten.trans (hreplaced.mono ?_), fun _ => hread⟩
    rintro l (rfl | rfl)
    · exact .inl hloc
    · exact .inr ⟨rfl, rfl⟩

/-- Names that lead to a file that no write goes through. -/
structure IsOrdinary (names : List Text) : Prop where
  ne_nil : names ≠ []
  not_temporary : ¬ Temporary names

/-- A write keeps an ordinary file that it does not succeed to write. -/
theorem readText_of_write {t : Text} {x : Except Failure Unit}
    (hnames : ∀ name ∈ names, Path.IsName name) (hordinary : IsOrdinary names)
    (h : σ.write path content d = (x, d')) (hother : x = .ok () → resolve path ≠ .ok names)
    (hread : d.readText (σ.fullPath names) = .ok t) : d'.readText (σ.fullPath names) = .ok t := by
  cases hresolve : resolve path with
  | error f =>
    rw [write, hresolve] at h
    cases h
    exact hread
  | ok found =>
    refine (write_spec hresolve h).1.readText ?_ hread
    rw [destination_fullPath d.home hnames]
    -- neither is its place that of a hidden file, nor does the other path lead there
    rintro (⟨name, hlast⟩ | ⟨hx, heq⟩)
    · rw [List.getLast?_append] at hlast
      cases hown : names.getLast? with
      | none => exact hordinary.ne_nil (List.getLast?_eq_none_iff.1 hown)
      | some own =>
        rw [hown, Option.some_or] at hlast
        exact hordinary.not_temporary ⟨name, hown.trans hlast⟩
    · rw [List.append_cancel_left heq] at hother
      exact hother hx hresolve

end DirectoryStore

end Mend
