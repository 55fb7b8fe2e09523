import Mend.Proofs.Store.Directory

/-!
# Paths above a path

The parts of a path are its head and those of its pieces (`Path.parts_eq`). The pieces of a path
without the slashes at its end are those of the path, and the path above has the first of them: it
lacks the last name, and points beside it (`Path.parent?_eq_some`). So it leads along the way of the
path (`Path.Along`), and the path above a name in a directory is that of the directory, but for
points at its end (`Path.IsName.exists_parent?_join`).
-/

namespace Mend

namespace Path

/-! ## Pieces -/

theorem pieces_append_cons (front back : Text) :
    pieces (front ++ slash :: back) = pieces front ++ pieces back := by
  rw [pieces, Text.splitOn_append_cons, List.filter_append, ← pieces, ← pieces]

/-- A text without slashes is a piece, unless it is empty. -/
theorem pieces_of_notMem {t : Text} (h : slash ∉ t) :
    pieces t = [t].filter fun piece => !piece.isEmpty := by
  rw [pieces, List.splitOn_eq_singleton h]

/-- Texts between slashes are pieces, but for the empty ones. -/
theorem pieces_joinWith {ls : List Text} (h : ∀ l ∈ ls, slash ∉ l) :
    pieces (Text.joinWith [slash] ls) = ls.filter fun piece => !piece.isEmpty := by
  induction ls with
  | nil => rfl
  | cons l ls ih =>
    rw [List.forall_mem_cons] at h
    cases ls with
    | nil =>
      have hone : Text.joinWith [slash] [l] = l := by simp [Text.joinWith]
      rw [hone, pieces_of_notMem h.1]
    | cons m ls =>
      rw [Text.joinWith_cons_cons, List.append_assoc, List.singleton_append, pieces_append_cons,
        ih h.2, pieces_of_notMem h.1, ← List.filter_append, List.singleton_append]

/-- Slashes at the end add no pieces. -/
theorem pieces_append_slashes {slashes : Text} (h : ∀ c ∈ slashes, c = slash) (t : Text) :
    pieces (t ++ slashes) = pieces t := by
  induction slashes generalizing t with
  | nil => rw [List.append_nil]
  | cons c rest ih =>
    rw [List.forall_mem_cons] at h
    have hrest : pieces rest = [] := ih h.2 []
    rw [h.1, pieces_append_cons, hrest, List.append_nil]

/-- What is dropped at the end of a list. -/
theorem exists_dropped {α : Type} (p : α → Bool) (ls : List α) : ∃ dropped,
    ls = (ls.reverse.dropWhile p).reverse ++ dropped ∧ (∀ x ∈ dropped, p x = true) ∧
      ∀ x, (ls.reverse.dropWhile p).reverse.getLast? = some x → p x = false := by
  refine ⟨(ls.reverse.takeWhile p).reverse, ?_, fun x hx => ?_, fun x hx => ?_⟩
  · rw [← List.reverse_append, List.takeWhile_append_dropWhile, List.reverse_reverse]
  · exact List.all_eq_true.1 List.all_takeWhile x (List.mem_reverse.1 hx)
  · have hfirst := List.head?_dropWhile_not p ls.reverse
    rw [List.getLast?_reverse] at hx
    rw [hx] at hfirst
    exact hfirst

/-! ## Parts -/

/-- What stands before the names of a path. -/
def head (path : Text) : List PathPart :=
  if isAbsolute path then [.root]
  else if (path.splitOn slash).head? = some ['.'] then [.current]
  else []

/-- The parts of a path are those of its pieces. -/
theorem parts_eq (path : Text) : parts path = head path ++ (pieces path).filterMap part? := by
  have hpieces : ∀ ps : List Text,
      (ps.filter fun piece => !piece.isEmpty).filterMap part? = ps.filterMap part? := by
    intro ps
    rw [List.filterMap_filter]
    congr 1
    funext piece
    cases piece <;> simp [part?]
  rw [parts, pieces, hpieces, head]

/-- A path that starts at the root shows it in its head. -/
theorem isAbsolute_iff_head {path : Text} : isAbsolute path = true ↔ head path = [.root] := by
  rw [head]
  split
  · rename_i habsolute
    exact ⟨fun _ => rfl, fun _ => habsolute⟩
  · rename_i hrelative
    refine ⟨fun h => absurd h hrelative, fun h => ?_⟩
    split at h
    · cases h
    · cases h

theorem isAbsolute_eq_of_head {path other : Text} (h : head path = head other) :
    isAbsolute path = isAbsolute other := by
  rw [Bool.eq_iff_iff, isAbsolute_iff_head, isAbsolute_iff_head, h]

/-- The head of a path that does not start with a slash is read off its first piece. -/
theorem head_eq_of_relative {path : Text} (h : isAbsolute path = false) :
    head path = if (path.splitOn slash).head? = some ['.'] then [.current] else [] := by
  rw [head, h, if_neg Bool.false_ne_true]

/-- The first piece does not depend on what stands behind a slash. -/
theorem head?_splitOn_append_cons (front back : Text) :
    ((front ++ slash :: back).splitOn slash).head? = (front.splitOn slash).head? := by
  obtain ⟨first, rest, hfront⟩ := List.exists_cons_of_ne_nil (List.splitOn_ne_nil slash front)
  rw [Text.splitOn_append_cons, hfront]
  rfl

theorem head?_splitOn_joinWith {l : Text} (h : slash ∉ l) (ls : List Text) :
    ((Text.joinWith [slash] (l :: ls)).splitOn slash).head? = some l := by
  cases ls with
  | nil =>
    have hone : Text.joinWith [slash] [l] = l := by simp [Text.joinWith]
    rw [hone, List.splitOn_eq_singleton h]
    rfl
  | cons m ls =>
    rw [Text.joinWith_cons_cons, List.append_assoc, List.singleton_append,
      head?_splitOn_append_cons, List.splitOn_eq_singleton h]
    rfl

/-! ## Along a path -/

/-- A path that leads along the way of another one. -/
structure Along (path other : Text) : Prop where
  isAbsolute : isAbsolute path = isAbsolute other
  pieces : pieces path <+: pieces other

theorem Along.refl (path : Text) : Along path path := ⟨rfl, List.prefix_refl _⟩

theorem Along.trans {path other more : Text} (h : Along path other) (h' : Along other more) :
    Along path more :=
  ⟨h.isAbsolute.trans h'.isAbsolute, h.pieces.trans h'.pieces⟩

/-- Without the slashes at its end, a path has the same pieces. -/
theorem pieces_trimRight (path : Text) :
    pieces (trimRight path) = pieces path ∧ isAbsolute (trimRight path) = isAbsolute path := by
  obtain ⟨slashes, hpath, hslashes, -⟩ := exists_dropped (· == slash) path
  have hslashes : ∀ c ∈ slashes, c = slash := fun c hc => by simpa using hslashes c hc
  have hpieces := pieces_append_slashes hslashes (Text.dropEndWhile (· == slash) path)
  rw [Text.dropEndWhile, ← hpath] at hpieces
  rw [trimRight, Text.dropEndWhile]
  cases ht : (path.reverse.dropWhile (· == slash)).reverse with
  | nil =>
    rw [ht] at hpieces
    cases habsolute : isAbsolute path with
    | true => exact ⟨hpieces.symm, rfl⟩
    | false => exact ⟨hpieces.symm, rfl⟩
  | cons c rest =>
    rw [ht] at hpieces hpath
    refine ⟨hpieces.symm, ?_⟩
    rw [hpath]
    rfl

theorem along_trimRight (path : Text) : Along (trimRight path) path :=
  ⟨(pieces_trimRight path).2, (pieces_trimRight path).1 ▸ List.prefix_refl _⟩

/-! ## The path above -/

/-- Texts that start with one that is not empty, with slashes between. -/
theorem exists_joinWith_cons (c : Char) (front : Text) (ls : List Text) :
    ∃ rest, Text.joinWith [slash] ((c :: front) :: ls) = c :: rest := by
  cases ls with
  | nil => exact ⟨front, by simp [Text.joinWith]⟩
  | cons l ls => exact ⟨_, Text.joinWith_cons_cons ..⟩

/-- A point, and behind it texts of which the first one is empty. -/
theorem pieces_point_append {ls more : List Text} (h : ls <+: [] :: more)
    (hls : ∀ l ∈ ls, slash ∉ l) : pieces (['.'] ++ Text.joinWith [slash] ls)
        = ['.'] :: ls.filter (fun piece => !piece.isEmpty) ∧
      head (['.'] ++ Text.joinWith [slash] ls) = [.current] := by
  match ls with
  | [] => exact ⟨rfl, rfl⟩
  | [l] =>
    obtain rfl : l = [] := (List.cons_prefix_cons.1 h).1
    exact ⟨rfl, rfl⟩
  | l :: m :: ls =>
    obtain rfl : l = [] := (List.cons_prefix_cons.1 h).1
    have hjoined := pieces_joinWith (List.forall_mem_cons.1 hls).2
    have htext : ['.'] ++ Text.joinWith [slash] ([] :: m :: ls)
        = ['.'] ++ slash :: Text.joinWith [slash] (m :: ls) := by
      rw [Text.joinWith_cons_cons]
      rfl
    rw [htext]
    refine ⟨by rw [pieces_append_cons, hjoined]; rfl, ?_⟩
    rw [head_eq_of_relative rfl, head?_splitOn_append_cons]
    rfl

/-- The head of a path with some of its first pieces has the head of the path, and the pieces of
both. -/
theorem pieces_head_append (path : Text) {ls : List Text}
    (h : ls <+: (path.drop (headLength path)).splitOn slash) :
    pieces (path.take (headLength path) ++ Text.joinWith [slash] ls)
        = pieces (path.take (headLength path)) ++ ls.filter (fun piece => !piece.isEmpty) ∧
      head (path.take (headLength path) ++ Text.joinWith [slash] ls) = head path := by
  have hls : ∀ l ∈ ls, slash ∉ l := fun l hl => Text.sep_notMem_of_mem_splitOn (h.subset hl)
  have hjoined := pieces_joinWith hls
  cases path with
  | nil =>
    cases ls with
    | nil => exact ⟨rfl, rfl⟩
    | cons l more =>
      obtain ⟨rfl, hmore⟩ := List.cons_prefix_cons.1 h
      rw [List.prefix_nil.1 hmore]
      exact ⟨rfl, rfl⟩
  | cons c rest =>
    by_cases hslash : c = slash
    · subst hslash
      have hlength : headLength (slash :: rest) = 1 := rfl
      rw [hlength, List.take_succ_cons, List.take_zero, List.singleton_append]
      exact ⟨(pieces_append_cons [] _).trans (by rw [hjoined]; rfl), rfl⟩
    have hrelative : isAbsolute (c :: rest) = false := by simpa [isAbsolute] using hslash
    obtain ⟨front, more, hsplit⟩ : ∃ front more,
        (c :: rest).splitOn slash = (c :: front) :: more := by
      obtain ⟨front, more, hmore⟩ := List.exists_cons_of_ne_nil (List.splitOn_ne_nil slash rest)
      rw [List.splitOn_cons_eq_if_modifyHead, if_neg (by simpa using hslash), hmore]
      exact ⟨front, more, rfl⟩
    by_cases hpoint : c :: front = ['.']
    · have hlength : headLength (c :: rest) = 1 := by simp [headLength, hsplit, hpoint]
      obtain ⟨rfl, rfl⟩ := List.cons.inj hpoint
      -- behind a point at the start there is a slash, or nothing
      have hempty : ∃ pieces, rest.splitOn slash = [] :: pieces := by
        have hpath := Text.joinWith_splitOn slash ('.' :: rest)
        rw [hsplit] at hpath
        cases more with
        | nil =>
          obtain rfl : rest = [] := by simpa [Text.joinWith] using hpath.symm
          exact ⟨[], rfl⟩
        | cons m more =>
          rw [Text.joinWith_cons_cons] at hpath
          obtain rfl := (List.cons.inj hpath).2
          exact ⟨_, Text.splitOn_append_cons slash [] _⟩
      obtain ⟨pieces, hpieces⟩ := hempty
      rw [hlength, List.drop_succ_cons, List.drop_zero, hpieces] at h
      obtain ⟨hjoined', hhead⟩ := pieces_point_append h hls
      rw [hlength, List.take_succ_cons, List.take_zero, hjoined', hhead,
        head_eq_of_relative hrelative, hsplit]
      exact ⟨rfl, rfl⟩
    · have hlength : headLength (c :: rest) = 0 := by simp [headLength, hsplit, hpoint, hrelative]
      rw [hlength, List.drop_zero, hsplit] at h
      rw [hlength, List.take_zero, List.nil_append, head_eq_of_relative hrelative, hsplit]
      refine ⟨hjoined, ?_⟩
      cases ls with
      | nil => simp [hpoint, Text.joinWith, head, isAbsolute]
      | cons l ls =>
        obtain rfl := (List.cons_prefix_cons.1 h).1
        obtain ⟨rest', hjoin⟩ := exists_joinWith_cons c front ls
        have hrelative' : isAbsolute (Text.joinWith [slash] ((c :: front) :: ls)) = false := by
          rw [hjoin]
          simpa [isAbsolute] using hslash
        rw [head_eq_of_relative hrelative',
          head?_splitOn_joinWith (hls _ (List.mem_cons_self ..))]
        rfl

/-- What is dropped at the end of the pieces of a body. -/
theorem filter_of_dropped {pieces : List Text}
    (h : ∀ piece ∈ pieces, (piece.isEmpty || decide (piece = ['.'])) = true) :
    ∀ piece ∈ pieces.filter (fun piece => !piece.isEmpty), piece = ['.'] := by
  intro piece hpiece
  obtain ⟨hmem, hne⟩ := List.mem_filter.1 hpiece
  have hdropped := h piece hmem
  rw [Bool.not_eq_true'] at hne
  rw [hne, Bool.false_or, decide_eq_true_iff] at hdropped
  exact hdropped

/-- The pieces of a path are those of its head and its body, and points. -/
theorem exists_pieces (path : Text) : ∃ points, (∀ piece ∈ points, piece = ['.']) ∧
    pieces path = pieces (path.take (headLength path)) ++
      (bodyPieces path).filter (fun piece => !piece.isEmpty) ++ points := by
  have hwhole := (pieces_head_append path (List.prefix_refl _)).1
  rw [Text.joinWith_splitOn, List.take_append_drop] at hwhole
  obtain ⟨dropped, hbody, hdropped, -⟩ := exists_dropped
    (fun piece => piece.isEmpty || decide (piece = ['.']))
    ((path.drop (headLength path)).splitOn slash)
  refine ⟨dropped.filter fun piece => !piece.isEmpty, filter_of_dropped hdropped, ?_⟩
  rw [hwhole, List.append_assoc, ← List.filter_append, bodyPieces, ← hbody]

/-- The head of a relative path is a point at most. -/
theorem pieces_head {path : Text} (h : isAbsolute path = false) :
    ∀ piece ∈ pieces (path.take (headLength path)), piece = ['.'] := by
  rw [headLength, h, Bool.false_or]
  split
  · rename_i hpoint
    rw [decide_eq_true_iff] at hpoint
    obtain ⟨more, hmore⟩ := List.head?_eq_some_iff.1 hpoint
    have hpath := Text.joinWith_splitOn slash path
    obtain ⟨rest, hrest⟩ := exists_joinWith_cons '.' [] more
    rw [hmore, hrest] at hpath
    rw [← hpath]
    exact fun piece hpiece => List.mem_singleton.1 hpiece
  · exact fun piece hpiece => absurd hpiece List.not_mem_nil

/-- The path above has the pieces before the last name of a path; there is no name in one that
consists of points. -/
theorem parent?_eq_some {path above : Text} (h : parent? path = some above) :
    Along above path ∧ ((∀ piece ∈ pieces path, piece = ['.']) ∨
      head above = head path ∧ ∃ points last more, (∀ piece ∈ points, piece = ['.']) ∧
        (∀ piece ∈ more, piece = ['.']) ∧
        pieces path = pieces above ++ points ++ last :: more) := by
  obtain ⟨more, hmore, hpieces⟩ := exists_pieces path
  rw [parent?] at h
  split at h
  · rename_i hempty
    split at h
    · cases h
    rename_i hrelative
    cases h
    rw [Bool.or_eq_true, not_or, Bool.not_eq_true] at hrelative
    refine ⟨⟨hrelative.1.symm, List.nil_prefix⟩, .inl fun piece hpiece => ?_⟩
    rw [hpieces, List.isEmpty_iff.1 hempty, List.filter_nil, List.append_nil,
      List.mem_append] at hpiece
    exact hpiece.elim (pieces_head hrelative.1 piece) (hmore piece)
  · rename_i hempty
    cases h
    obtain ⟨trail, hbody, -, hlast⟩ := exists_dropped
      (fun piece => piece.isEmpty || decide (piece = ['.']))
      ((path.drop (headLength path)).splitOn slash)
    rw [← bodyPieces] at hbody hlast
    -- the body ends in a name, and points may stand before it
    obtain ⟨init, last, hinit⟩ : ∃ init last, bodyPieces path = init ++ [last] :=
      ⟨_, _, (List.dropLast_concat_getLast fun hnil => hempty (by rw [hnil]; rfl)).symm⟩
    obtain ⟨dropped, hkept, hdropped, -⟩ := exists_dropped
      (fun piece => piece.isEmpty || decide (piece = ['.'])) init
    rw [hinit] at hbody hlast hpieces
    rw [hinit, List.dropLast_concat, withBody]
    generalize (init.reverse.dropWhile fun piece =>
      piece.isEmpty || decide (piece = ['.'])).reverse = kept at hkept ⊢
    subst hkept
    have hprefix : kept <+: (path.drop (headLength path)).splitOn slash := by
      rw [hbody, List.append_assoc, List.append_assoc]
      exact List.prefix_append ..
    obtain ⟨habove, hhead⟩ := pieces_head_append path hprefix
    have hname : [last].filter (fun piece => !piece.isEmpty) = [last] := by
      have hnot := hlast last List.getLast?_concat
      rw [Bool.or_eq_false_iff] at hnot
      rw [List.filter_cons_of_pos (by rw [hnot.1]; rfl), List.filter_nil]
    have hpath : pieces path = pieces (path.take (headLength path) ++ Text.joinWith [slash] kept) ++
        dropped.filter (fun piece => !piece.isEmpty) ++ last :: more := by
      rw [hpieces, habove, List.filter_append, List.filter_append, hname]
      simp only [List.append_assoc, List.singleton_append]
    refine ⟨⟨isAbsolute_eq_of_head hhead, ?_⟩,
      .inr ⟨hhead, _, last, more, filter_of_dropped hdropped, hmore, hpath⟩⟩
    rw [hpath, List.append_assoc]
    exact List.prefix_append ..

/-- Only paths without names have no path above. -/
theorem parent?_eq_none {path : Text} (h : parent? path = none) :
    ∀ piece ∈ pieces path, piece = ['.'] := by
  obtain ⟨points, hpoints, hpieces⟩ := exists_pieces path
  rw [parent?] at h
  split at h
  · rename_i hempty
    split at h
    · rename_i hroot
      have hhead : pieces (path.take (headLength path)) = [] := by
        cases path with
        | nil => rfl
        | cons c rest =>
          obtain rfl : c = slash := by simpa [isAbsolute] using hroot
          rfl
      rw [hpieces, hhead, List.isEmpty_iff.1 hempty]
      exact hpoints
    · cases h
  · cases h

theorem along_parent? {path above : Text} (h : parent? path = some above) : Along above path :=
  (parent?_eq_some h).1

/-- Points lead nowhere else. -/
theorem destinationFrom_points {loc : Location} {points : List Text}
    (h : ∀ piece ∈ points, piece = ['.']) : Disk.destinationFrom loc points = loc := by
  induction points with
  | nil => rfl
  | cons piece rest ih =>
    rw [List.forall_mem_cons] at h
    rw [Disk.destinationFrom, if_pos h.1]
    exact ih h.2

/-- A path as another one, but for points at its end. -/
structure Shortens (path other : Text) : Prop where
  head : head path = head other
  pieces : ∃ points, (∀ piece ∈ points, piece = ['.']) ∧ pieces other = pieces path ++ points

namespace Shortens

variable {path other : Text}

theorem along (h : Shortens path other) : Along path other where
  isAbsolute := isAbsolute_eq_of_head h.head
  pieces := by
    obtain ⟨points, -, hpieces⟩ := h.pieces
    exact hpieces ▸ List.prefix_append ..

theorem destination (h : Shortens path other) (home : Location) :
    Disk.destination home path = Disk.destination home other := by
  obtain ⟨points, hpoints, hpieces⟩ := h.pieces
  rw [Disk.destination, Disk.destination, hpieces, Disk.destinationFrom_append,
    destinationFrom_points hpoints, h.along.isAbsolute]

theorem parts (h : Shortens path other) : parts path = Path.parts other := by
  obtain ⟨points, hpoints, hpieces⟩ := h.pieces
  have hnone : points.filterMap part? = [] :=
    List.filterMap_eq_nil_iff.2 fun piece hpiece => by rw [hpoints piece hpiece]; rfl
  rw [parts_eq, parts_eq, h.head, hpieces, List.filterMap_append, hnone, List.append_nil]

end Shortens

/-- A name does not change the head of its base. -/
theorem IsName.head_join {name : Text} (hname : IsName name) (base : Text) :
    head (join base name) = head base := by
  cases habsolute : isAbsolute base with
  | true =>
    have hjoin := (hname.isAbsolute_join base).trans habsolute
    rw [isAbsolute_iff_head.1 hjoin, isAbsolute_iff_head.1 habsolute]
  | false =>
    have hjoin := (hname.isAbsolute_join base).trans habsolute
    rw [head_eq_of_relative hjoin, head_eq_of_relative habsolute, join, hname.isAbsolute_eq_false,
      if_neg Bool.false_ne_true]
    split
    · rename_i hend
      rw [Bool.or_eq_true, List.isEmpty_iff, decide_eq_true_iff] at hend
      rcases hend with rfl | hend
      · -- neither the name nor nothing is a point
        simp [List.splitOn_eq_singleton hname.slash_notMem, hname.ne_current]
      · obtain ⟨front, rfl⟩ := List.getLast?_eq_some_iff.1 hend
        rw [List.append_assoc, List.singleton_append, head?_splitOn_append_cons,
          head?_splitOn_append_cons]
    · rw [head?_splitOn_append_cons]

theorem IsName.parts_join {name : Text} (hname : IsName name) (base : Text) :
    parts (join base name) = parts base ++ [.name name] := by
  have hpart : part? name = some (.name name) := by
    simp [part?, hname.ne_nil, hname.ne_current, hname.ne_up]
  rw [parts_eq, parts_eq, hname.head_join, hname.pieces_join, List.filterMap_append,
    List.filterMap_cons_some hpart, List.filterMap_nil, List.append_assoc]

/-- Names add their parts to those of their base. -/
theorem parts_foldl_join {names : List Text} (h : ∀ name ∈ names, IsName name) (base : Text) :
    parts (names.foldl join base) = parts base ++ names.map .name := by
  induction names generalizing base with
  | nil => exact (List.append_nil _).symm
  | cons name rest ih =>
    rw [List.forall_mem_cons] at h
    rw [List.foldl_cons, ih h.2, h.1.parts_join, List.append_assoc, List.map_cons,
      List.singleton_append]

/-- The path above a name in a directory is that of the directory, but for points at its end. -/
theorem IsName.exists_parent?_join {name : Text} (hname : IsName name) (base : Text) :
    ∃ above, parent? (join base name) = some above ∧ Shortens above base := by
  have hpieces := hname.pieces_join base
  have hmem : name ∈ Path.pieces (join base name) := by
    rw [hpieces]
    exact List.mem_append_right _ (List.mem_singleton_self _)
  cases habove : parent? (join base name) with
  | none =>
    exact absurd (parent?_eq_none habove name hmem) hname.ne_current
  | some above =>
    obtain ⟨-, hpoints | ⟨hhead, points, last, more, hpoints, hmore, hpath⟩⟩ :=
      parent?_eq_some habove
    · exact absurd (hpoints name hmem) hname.ne_current
    refine ⟨above, rfl, hhead.trans (hname.head_join base), points, hpoints, ?_⟩
    rw [hpieces] at hpath
    -- the name ends the path, so there are no points behind it
    rcases List.eq_nil_or_concat more with rfl | ⟨front, point, rfl⟩
    · exact (List.append_inj' hpath rfl).1
    · rw [List.concat_eq_append] at hmore
      rw [List.concat_eq_append, ← List.cons_append, ← List.append_assoc] at hpath
      have hlast := (List.append_inj' hpath rfl).2
      have hpoint := hmore point (List.mem_append_right _ (List.mem_singleton_self _))
      exact absurd ((List.cons.inj hlast).1.trans hpoint) hname.ne_current

end Path

end Mend
