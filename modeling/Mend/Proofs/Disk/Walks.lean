import Mend.Proofs.Disk.Subtrees

/-!
# Walks

What one walk says of another. A path without the slashes at its end leads where the path does
(`Disk.walk_trimRight`). Where the path of a name is walked, that of a name which is part of it is
walked as well, unless it is too long as a whole (`Disk.walk_beside`).
-/

namespace Mend

namespace Text

theorem byteLength_eq (t : Text) : t.byteLength = (t.map Char.utf8Size).sum := by
  rw [byteLength, List.sum_eq_foldl, List.foldl_map]

/-- A part of a text is no longer than the text. -/
theorem byteLength_le {t u : Text} (h : t <:+: u) : t.byteLength ≤ u.byteLength := by
  obtain ⟨front, back, rfl⟩ := h
  simp only [byteLength_eq, List.map_append, List.sum_append]
  omega

end Text

namespace Path

variable {path above base name : Text}

theorem trimRight_prefix (path : Text) : trimRight path <+: path := by
  obtain ⟨slashes, hpath, -, -⟩ := exists_dropped (· == slash) path
  rw [trimRight, Text.dropEndWhile]
  split
  · rename_i habsolute
    obtain ⟨rest, rfl⟩ := List.head?_eq_some_iff.1 (of_decide_eq_true habsolute)
    exact ⟨rest, rfl⟩
  · exact ⟨slashes, hpath.symm⟩

theorem trimRight_ne_nil (h : path ≠ []) : trimRight path ≠ [] := by
  obtain ⟨slashes, hpath, hslashes, -⟩ := exists_dropped (· == slash) path
  obtain ⟨c, rest, rfl⟩ := List.exists_cons_of_ne_nil h
  rw [trimRight, Text.dropEndWhile]
  split
  · exact List.cons_ne_nil _ _
  · rename_i hroot
    intro hnil
    -- a path of slashes is absolute
    rw [hnil, List.nil_append] at hpath
    have hc : c = slash := by simpa using hslashes c (hpath ▸ List.mem_cons_self ..)
    exact hroot hnil (by simp [isAbsolute, hc])

/-- A character between slashes is in a piece. -/
theorem mem_iff_pieces {c : Char} (hc : c ≠ slash) :
    c ∈ path ↔ ∃ piece ∈ pieces path, c ∈ piece := by
  have hsplit : c ∈ path ↔ ∃ piece ∈ path.splitOn slash, c ∈ piece := by
    induction path with
    | nil => simp
    | cons a t ih =>
      rw [List.mem_cons, ih, List.splitOn_cons_eq_if_modifyHead]
      split
      · rename_i hslash
        have hne : c ≠ a := fun heq => hc (heq.trans (by simpa using hslash))
        simp [hne]
      · obtain ⟨first, rest, hfirst⟩ := List.exists_cons_of_ne_nil (List.splitOn_ne_nil slash t)
        simp [hfirst, or_assoc]
  rw [hsplit]
  refine exists_congr fun piece => and_congr_left fun hmem => ?_
  -- a piece that holds a character is not left out
  cases piece with
  | nil => cases hmem
  | cons a t => simp [pieces]

/-- What stands in a path and is no separator or point stands in a path that shortens it. -/
theorem Shortens.mem (h : Shortens above base) {c : Char} (hc : c ≠ slash) (hpoint : c ≠ '.')
    (hmem : c ∈ base) : c ∈ above := by
  obtain ⟨points, hpoints, hpieces⟩ := h.pieces
  obtain ⟨piece, hpiece, hmem⟩ := (mem_iff_pieces hc).1 hmem
  rw [hpieces, List.mem_append] at hpiece
  rcases hpiece with hpiece | hpiece
  · exact (mem_iff_pieces hc).2 ⟨piece, hpiece, hmem⟩
  · rw [hpoints piece hpiece, List.mem_singleton] at hmem
    exact absurd hmem hpoint

theorem IsName.mem_join (hname : IsName name) {c : Char} (hc : c ≠ slash) :
    c ∈ join base name ↔ c ∈ base ∨ c ∈ name := by
  rw [mem_iff_pieces hc, mem_iff_pieces hc, hname.pieces_join]
  simp [or_and_right, exists_or]

theorem IsName.steps_join (hname : IsName name) (base : Text) :
    Disk.steps (join base name) = pieces base ++ [name] := by
  rw [Disk.steps, if_neg (hname.getLast?_join base), hname.pieces_join]

end Path

namespace Disk

variable {d : Disk} {path above base name other : Text} {loc place : Location}

theorem walkFrom_append (d : Disk) (loc : Location) (pieces more : List Text) :
    d.walkFrom loc (pieces ++ more) = (d.walkFrom loc pieces).bind (d.walkFrom · more) := by
  induction pieces generalizing loc with
  | nil => rfl
  | cons piece rest ih =>
    rw [List.cons_append, walkFrom, walkFrom]
    split
    · rfl
    · rfl
    split
    · exact ih loc
    split
    · exact ih loc.dropLast
    split
    · rfl
    · exact ih (loc ++ [piece])

/-- What a path must be to be walked at all. -/
theorem refusal?_eq_none : refusal? path = none ↔
    (∀ c ∈ path, c.toNat ≠ 0) ∧ path ≠ [] ∧ path.byteLength ≤ longestPath := by
  rw [refusal?]
  split
  · rename_i hnul
    obtain ⟨c, hc, hzero⟩ := List.any_eq_true.1 hnul
    exact iff_of_false (Option.some_ne_none _) fun h => h.1 c hc (of_decide_eq_true hzero)
  rename_i hnul
  split
  · rename_i hempty
    exact iff_of_false (Option.some_ne_none _) fun h => h.2.1 (List.isEmpty_iff.1 hempty)
  rename_i hempty
  split
  · rename_i hlong
    exact iff_of_false (Option.some_ne_none _) fun h => Nat.not_le.2 hlong h.2.2
  · rename_i hlong
    refine iff_of_true rfl ⟨fun c hc hzero => hnul ?_, fun h => hempty (List.isEmpty_iff.2 h),
      Nat.not_lt.1 hlong⟩
    exact List.any_eq_true.2 ⟨c, hc, decide_eq_true hzero⟩

/-! ## Slashes at the end -/

/-- A path without the slashes at its end is refused for nothing else than the path. -/
theorem refusal?_trimRight (h : refusal? path = none) : refusal? (Path.trimRight path) = none := by
  obtain ⟨hchars, hne, hlong⟩ := refusal?_eq_none.1 h
  have htrim := Path.trimRight_prefix path
  exact refusal?_eq_none.2 ⟨fun c hc => hchars c (htrim.subset hc), Path.trimRight_ne_nil hne,
    Nat.le_trans (Text.byteLength_le htrim.isInfix) hlong⟩

/-- A path without the slashes at its end leads where the path does. -/
theorem walk_trimRight (h : d.walk path = .ok loc) :
    d.walk (Path.trimRight path) = .ok loc := by
  by_cases hslash : path.getLast? = some Path.slash
  · obtain ⟨hpieces, habsolute⟩ := Path.pieces_trimRight path
    cases hrefusal : refusal? path with
    | some e =>
      rw [walk_eq, hrefusal] at h
      cases h
    | none =>
      rw [walk_eq, hrefusal, steps, if_pos hslash] at h
      rw [walk_eq, refusal?_trimRight hrefusal, steps, hpieces, start, habsolute, ← start]
      dsimp only at h ⊢
      by_cases htrim : (Path.trimRight path).getLast? = some Path.slash
      · rw [if_pos htrim]
        exact h
      rw [if_neg htrim]
      -- the point for the slash leads nowhere else
      rw [walkFrom_append] at h
      cases hwalk : d.walkFrom (start d.home path) (Path.pieces path) with
      | error e =>
        rw [hwalk] at h
        cases h
      | ok dest =>
        rw [hwalk] at h
        rw [destinationFrom_of_walkFrom h]
        rfl
  · rwa [Path.trimRight_eq_self hslash]

/-! ## Names beside each other -/

theorem walkFrom_points {points : List Text} (hpoints : ∀ piece ∈ points, piece = ['.'])
    (hdir : d.node? loc = some .dir) : d.walkFrom loc points = .ok loc := by
  induction points with
  | nil => rfl
  | cons piece rest ih =>
    rw [List.forall_mem_cons] at hpoints
    rw [walkFrom, hdir, if_pos hpoints.1]
    exact ih hpoints.2

theorem walkFrom_name (hname : Path.IsName name) (hdir : d.node? loc = some .dir) :
    d.walkFrom loc [name]
      = if longestName < name.byteLength then .error .nameTooLong else .ok (loc ++ [name]) := by
  rw [walkFrom, hdir]
  dsimp only
  rw [if_neg hname.ne_current, if_neg hname.ne_up]
  rfl

/-- A path of a name is not refused when it is short enough and one is not that ends in a name
around it. -/
theorem refusal?_beside (hshort : Path.Shortens above base) (hother : Path.IsName other)
    (hname : Path.IsName name) (haround : name <:+: other)
    (hrefusal : refusal? (Path.join above other) = none)
    (hlong : (Path.join base name).byteLength ≤ longestPath) :
    refusal? (Path.join base name) = none := by
  obtain ⟨hchars, -, -⟩ := refusal?_eq_none.1 hrefusal
  refine refusal?_eq_none.2 ⟨fun c hc hzero => ?_, fun hnil => ?_, hlong⟩
  · have hslash : c ≠ Path.slash := by
      rintro rfl
      cases hzero
    have hpoint : c ≠ '.' := by
      rintro rfl
      cases hzero
    refine hchars c ((hother.mem_join hslash).2 ?_) hzero
    rcases (hname.mem_join hslash).1 hc with hbase | hmem
    · exact .inl (hshort.mem hslash hpoint hbase)
    · exact .inr (haround.subset hmem)
  · have hpieces := hname.pieces_join base
    rw [hnil] at hpieces
    exact List.concat_ne_nil _ _ hpieces.symm

/-- The path of a name is walked when it is short enough and the name is found beside a longer one
that holds its characters. -/
theorem walk_beside (hshort : Path.Shortens above base) (hother : Path.IsName other)
    (hname : Path.IsName name) (hwalk : d.walk (Path.join above other) = .ok place)
    (haround : name <:+: other) (hlong : (Path.join base name).byteLength ≤ longestPath) :
    d.walk (Path.join base name) = .ok (destination d.home base ++ [name]) := by
  obtain ⟨points, hpoints, hpieces⟩ := hshort.pieces
  rw [walk_eq] at hwalk
  split at hwalk
  · cases hwalk
  rename_i hrefusal
  rw [hother.steps_join, walkFrom_append] at hwalk
  cases hbase : d.walkFrom (start d.home (Path.join above other)) (Path.pieces above) with
  | error e =>
    rw [hbase] at hwalk
    cases hwalk
  | ok dest =>
    rw [hbase] at hwalk
    change d.walkFrom dest [other] = .ok place at hwalk
    have hdir : d.node? dest = some .dir :=
      dirs_of_walkFrom hwalk List.nil_prefix (List.cons_ne_nil _ _).symm
    have hstart : start d.home (Path.join above other) = start d.home (Path.join base name) := by
      rw [start, start, hother.isAbsolute_join, hname.isAbsolute_join, hshort.along.isAbsolute]
    rw [hstart] at hbase
    have hdest : dest = destination d.home base := by
      rw [← hshort.destination, destination, destinationFrom_of_walkFrom hbase, start,
        hname.isAbsolute_join, hshort.along.isAbsolute]
    have hshorter : ¬ longestName < name.byteLength := by
      intro hlt
      rw [walkFrom_name hother hdir, if_pos (Nat.lt_of_lt_of_le hlt (Text.byteLength_le haround))] at hwalk
      cases hwalk
    rw [walk_eq, refusal?_beside hshort hother hname haround hrefusal hlong, hname.steps_join,
      hpieces, List.append_assoc, walkFrom_append, hbase]
    change d.walkFrom dest (points ++ [name]) = _
    rw [walkFrom_append, walkFrom_points hpoints hdir]
    change d.walkFrom dest [name] = _
    rw [walkFrom_name hname hdir, if_neg hshorter, hdest]

end Disk

end Mend
