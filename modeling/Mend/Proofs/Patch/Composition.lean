import Mathlib.Control.Monad.Basic
import Mend.Proofs.Patch.Files
import Mend.Proofs.Patch.Run
import Mend.Proofs.Text.Lines

/-!
# Patches one after the other

A patch followed by another one does what the two do one after the other (`Patch.apply_append`): the
second one finds the files of the first one, its files update and extend them, and its lines are
counted on. So nothing that the engine or the reader of lines remembers leaks from one file into the
next: the headers of a file take back what the hunks before them left.

The proof compares the engine that goes on with one that starts afresh (`Patch.Engine.Follows`). The
two differ in the place in the buffer and in the kind of the last line until a hunk header sets them;
the tokens of a patch have no lines of hunks before that (`Patch.InHunks`).
-/

namespace Mend

/-- An error some lines further down. -/
def PatchError.shift (k : Nat) : PatchError → PatchError
  | unparseableHeader n text => unparseableHeader (n + k) text
  | contextMismatch n path expected found => contextMismatch (n + k) path expected found
  | removalMismatch n path expected found => removalMismatch (n + k) path expected found

/-- A warning about a patch some lines further down. -/
def PatchWarning.shift (k : Nat) : PatchWarning → PatchWarning
  | removalMismatch path n expected found => removalMismatch path (n + k) expected found
  | w => w

/-- A token some lines further down. -/
def Token.shift (k : Nat) (t : Token) : Token := { t with line := t.line + k }

namespace Patch

/-- A patch that starts with the two headers of a file. -/
def StartsFile (patch : Text) : Prop :=
  ∃ old new rest, patchLines patch = (oldMark ++ old) :: (newMark ++ new) :: rest

/-- A loader that finds some files and asks another one for the others. -/
def overlay {σ : Type} (files : List PatchedFile) (load : σ → Text → Loaded × σ) (s : σ)
    (path : Text) : Loaded × σ :=
  match ApplyResult.content? files path with
  | some t => (.content t, s)
  | none => load s path

/-! ## Lines -/

/-- The lines of a patch that a line feed ends stand before those of the next one. -/
theorem patchLines_append {first second : Text} (hfirst : first.getLast? = some Text.lf)
    (hsecond : second ≠ []) : patchLines (first ++ second) = patchLines first ++ patchLines second := by
  obtain ⟨body, rfl⟩ := List.getLast?_eq_some_iff.1 hfirst
  rw [patchLines, patchLines, patchLines, Text.dropSuffix_append_of_ne_nil hsecond,
    Text.dropSuffix_append, List.append_assoc, List.singleton_append, Text.splitOn_append_cons,
    List.map_append]

/-- Of the next line, only the mark of a new side counts. -/
theorem classify_congr {st : LineState} {n : Nat} {line : Text} {next next' : Option Text}
    (h : next.any newMark.isPrefixOf = next'.any newMark.isPrefixOf) :
    classify st n line next = classify st n line next' := by
  rw [classify, classify, h]

theorem classify_shift (st : LineState) (n k : Nat) (line : Text) (next : Option Text) :
    classify st (n + k) line next
      = match classify st n line next with
        | .error err => .error (err.shift k)
        | .ok kind => .ok kind := by
  rw [classify, classify]
  cases Text.dropPrefix? oldMark line with
  | some path =>
    dsimp only
    split <;> rfl
  | none =>
    cases Text.dropPrefix? newMark line with
    | some path =>
      dsimp only
      split <;> rfl
    | none =>
      dsimp only
      split
      · cases hunkHeader? line <;> rfl
      · split <;> rfl

theorem tokenizeFrom_shift (ls : List Text) (st : LineState) (n k : Nat) :
    tokenizeFrom st (n + k) ls
      = match tokenizeFrom st n ls with
        | .error err => .error (err.shift k)
        | .ok ts => .ok (ts.map (Token.shift k)) := by
  induction ls generalizing st n with
  | nil => rfl
  | cons l ls ih =>
    have hnext : n + k + 1 = n + 1 + k := by omega
    rw [tokenizeFrom, tokenizeFrom, classify_shift]
    cases classify st n l ls.head? with
    | error err => rfl
    | ok kind =>
      dsimp only
      rw [hnext, ih]
      cases tokenizeFrom (st.after kind) (n + 1) ls with
      | error err => rfl
      | ok ts => rfl

/-- Lines behind others are read from the state that these leave, when the first of them is no
header of a new side. -/
theorem tokenizeFrom_append {back : List Text} (hback : back.head?.any newMark.isPrefixOf = false)
    (front : List Text) (st : LineState) (n : Nat) :
    ∃ st', tokenizeFrom st n (front ++ back)
      = match tokenizeFrom st n front with
        | .error err => .error err
        | .ok ts =>
          match tokenizeFrom st' (n + front.length) back with
          | .error err => .error err
          | .ok ts' => .ok (ts ++ ts') := by
  induction front generalizing st n with
  | nil =>
    refine ⟨st, ?_⟩
    rw [List.nil_append, List.length_nil, Nat.add_zero, tokenizeFrom]
    dsimp only
    cases tokenizeFrom st n back with
    | error err => rfl
    | ok ts => rfl
  | cons l front ih =>
    -- the line after the last one is another, but no header of a new side
    have hclassify : classify st n l (front ++ back).head? = classify st n l front.head? := by
      apply classify_congr
      cases front with
      | nil => exact hback
      | cons l' front => rfl
    have hlength : n + (l :: front).length = n + 1 + front.length := by
      rw [List.length_cons]
      omega
    rw [List.cons_append, tokenizeFrom, tokenizeFrom, hclassify, hlength]
    cases hkind : classify st n l front.head? with
    | error err => exact ⟨st, rfl⟩
    | ok kind =>
      obtain ⟨st', hst'⟩ := ih (st.after kind) (n + 1)
      refine ⟨st', ?_⟩
      dsimp only
      rw [hst']
      cases tokenizeFrom (st.after kind) (n + 1) front with
      | error err => rfl
      | ok ts =>
        dsimp only
        cases tokenizeFrom st' (n + 1 + front.length) back with
        | error err => rfl
        | ok ts' => rfl

/-- The headers of a file are read alike in every state. -/
theorem tokenizeFrom_headers (st : LineState) (n : Nat) (old new : Text) (rest : List Text) :
    tokenizeFrom st n ((oldMark ++ old) :: (newMark ++ new) :: rest)
      = match tokenizeFrom ⟨false, true⟩ (n + 1) ((newMark ++ new) :: rest) with
        | .error err => .error err
        | .ok ts => .ok (⟨n, .oldHeader (headerPath old)⟩ :: ts) := by
  have hold : classify st n (oldMark ++ old) (some (newMark ++ new))
      = .ok (.oldHeader (headerPath old)) := by
    rw [classify, Text.dropPrefix?_append]
    simp
  rw [tokenizeFrom, List.head?_cons, hold]
  rfl

/-! ## Lines of hunks -/

/-- Tokens of which the lines of hunks stand below a hunk header. -/
def InHunks : LineState → List Token → Prop
  | _, [] => True
  | st, t :: ts => (isHunkLine t.kind = true → st.inHunk = true) ∧ InHunks (st.after t.kind) ts

theorem inHunk_of_classify {st : LineState} {n : Nat} {line : Text} {next : Option Text}
    {kind : TokenKind} (h : classify st n line next = .ok kind) (hkind : isHunkLine kind = true) :
    st.inHunk = true := by
  rw [classify] at h
  -- in the other branches the token is a header, or none of a hunk
  split at h
  · split at h
    · cases h
      cases hkind
    · simp_all
  · split at h
    · cases h
      cases hkind
    · simp_all
  · split at h
    · split at h
      · cases h
        cases hkind
      · cases h
    · split at h
      · assumption
      · cases h
        cases hkind

theorem inHunks_of_tokenizeFrom {ls : List Text} {st : LineState} {n : Nat} {ts : List Token}
    (h : tokenizeFrom st n ls = .ok ts) : InHunks st ts := by
  induction ls generalizing st n ts with
  | nil =>
    cases h
    exact trivial
  | cons l ls ih =>
    rw [tokenizeFrom] at h
    split at h
    · cases h
    · rename_i kind hkind
      split at h
      · cases h
      · rename_i rest hrest
        cases h
        exact ⟨inHunk_of_classify hkind, ih hrest⟩

namespace Engine

variable {σ : Type}

/-! ## The engine that goes on -/

/-- An engine that has finished files and given warnings before it reads the tokens of `f`. -/
structure Follows (older : List PatchedFile) (warned : List PatchWarning) (k : Nat) (inHunk : Bool)
    (e f : Engine) : Prop where
  files : e.files = ApplyResult.merge older f.files
  distinct : ApplyResult.Distinct f.files
  warnings : e.warnings = warned ++ f.warnings.map (PatchWarning.shift k)
  opened : e.opened = f.opened
  oldPath : e.oldPath = f.oldPath
  creating : e.creating = f.creating
  /-- Only a hunk header sets the place and the kind of the last line. -/
  place : inHunk = true → e.cursor = f.cursor ∧ e.last = f.last

/-- The same result: an engine that goes on, or an error further down. -/
inductive Matches (older : List PatchedFile) (warned : List PatchWarning) (k : Nat) (inHunk : Bool) :
    Except PatchError Engine × σ → Except PatchError Engine × σ → Prop
  | ok {e f : Engine} (s : σ) (h : Follows older warned k inHunk e f) :
      Matches older warned k inHunk (.ok e, s) (.ok f, s)
  | error (err : PatchError) (s : σ) :
      Matches older warned k inHunk (.error (err.shift k), s) (.error err, s)

section Follows

variable {older : List PatchedFile} {warned : List PatchWarning} {k : Nat} {inHunk : Bool}
  {e f : Engine} {rule : CursorRule} {strict : Bool}

theorem Follows.flush (h : Follows older warned k inHunk e f) :
    Follows older warned k inHunk e.flush f.flush := by
  rw [Engine.flush, Engine.flush, h.opened]
  cases f.opened with
  | none => exact h
  | some g =>
    dsimp only
    split
    · exact { h with opened := rfl }
    · exact { h with
        opened := rfl
        files := by rw [h.files, ApplyResult.merge_upsert h.distinct]
        distinct := h.distinct.upsert _ _ }

theorem Follows.warn (h : Follows older warned k inHunk e f) (w : PatchWarning) :
    Follows older warned k inHunk (e.warn (w.shift k)) (f.warn w) :=
  { h with warnings := by simp [Engine.warn, h.warnings] }

theorem Follows.opening (h : Follows older warned k inHunk e f) (file : OpenFile) :
    Follows older warned k inHunk { e with opened := some file } { f with opened := some file } :=
  { h with opened := rfl }

theorem Follows.openLoaded (h : Follows older warned k inHunk e f) (path : Text) (creating : Bool)
    (known : Loaded) : Follows older warned k inHunk (e.openLoaded path creating known)
      (f.openLoaded path creating known) := by
  cases known with
  | content t => exact h.opening _
  | notFound =>
    cases creating with
    | true => exact h.opening _
    | false => exact (h.warn (.fileNotFound path)).opening _
  | unreadable reason => exact h.warn (.targetUnreadable path reason)

/-- The file that is opened is found in both engines, or asked of the loader in both. -/
theorem Follows.openFile (h : Follows older warned k inHunk e f) (load : σ → Text → Loaded × σ)
    (path : Text) (s : σ) : Matches older warned k false
      (.ok (e.openFile load path s).1, (e.openFile load path s).2)
      (.ok (f.openFile (overlay older load) path s).1, (f.openFile (overlay older load) path s).2) := by
  have hflush := h.flush
  have hready : Follows older warned k false { e.flush with creating := false, cursor := 0 }
      { f.flush with creating := false, cursor := 0 } :=
    { hflush with creating := rfl, place := fun hplace => by cases hplace }
  have hcontent := ApplyResult.content?_merge hflush.distinct older path
  rw [← hflush.files] at hcontent
  simp only [Engine.openFile, hcontent, hflush.creating]
  -- a file of this patch, a file of the ones before it, or a file that the loader knows
  cases ApplyResult.content? f.flush.files path with
  | some t => exact .ok s (hready.openLoaded path f.flush.creating (.content t))
  | none =>
    rw [Option.none_or]
    cases hold : ApplyResult.content? older path with
    | some t =>
      simp only [overlay, hold]
      exact .ok s (hready.openLoaded path f.flush.creating (.content t))
    | none =>
      simp only [overlay, hold]
      exact .ok _ (hready.openLoaded path f.flush.creating (load s path).1)

theorem Follows.oldHeader (h : Follows older warned k inHunk e f) (path : Option Text) :
    Follows older warned k false (e.oldHeader path) (f.oldHeader path) :=
  { h.flush with
    oldPath := rfl
    creating := rfl
    place := fun hplace => by cases hplace }

theorem Follows.skipDeletion (h : Follows older warned k inHunk e f) :
    Follows older warned k false e.skipDeletion f.skipDeletion := by
  have hflush : Follows older warned k false e.flush f.flush :=
    { h.flush with place := fun hplace => by cases hplace }
  rw [Engine.skipDeletion, Engine.skipDeletion, hflush.oldPath]
  cases f.flush.oldPath with
  | none => exact hflush
  | some path => exact hflush.warn (.deletionSkipped path)

theorem Follows.hunk (h : Follows older warned k inHunk e f) (header : HunkHeader) :
    Follows older warned k true { e with cursor := header.cursor, last := .kept }
      { f with cursor := header.cursor, last := .kept } :=
  { h with place := fun _ => ⟨rfl, rfl⟩ }

/-! Inside a hunk the two engines stand at one place of one file. -/

theorem Follows.addLine (h : Follows older warned k true e f) (file : OpenFile) (added : Text) :
    Follows older warned k true (e.addLine file added) (f.addLine file added) := by
  obtain ⟨hcursor, hlast⟩ := h.place rfl
  rw [Engine.addLine, Engine.addLine, hcursor]
  exact { h with opened := rfl, place := fun _ => ⟨rfl, rfl⟩ }

theorem Follows.markEnd (h : Follows older warned k true e f) (file : OpenFile) :
    Follows older warned k true (e.markEnd file) (f.markEnd file) := by
  obtain ⟨hcursor, hlast⟩ := h.place rfl
  rw [Engine.markEnd, Engine.markEnd, hlast]
  exact { h with opened := rfl, place := fun _ => ⟨hcursor, rfl⟩ }

theorem Follows.removeLine (h : Follows older warned k true e f) (file : OpenFile) (n : Nat)
    (expected : Text) (s : σ) : Matches older warned k true
      (e.removeLine strict file (n + k) expected, s) (f.removeLine strict file n expected, s) := by
  obtain ⟨hcursor, hlast⟩ := h.place rfl
  rw [Engine.removeLine, Engine.removeLine, hcursor]
  dsimp only
  split
  · exact .ok s { h with opened := rfl, place := fun _ => ⟨rfl, rfl⟩ }
  · split
    · exact .error (.removalMismatch n file.path expected _) s
    · exact .ok s { h.warn (.removalMismatch file.path n expected _) with
        place := fun _ => ⟨hcursor, rfl⟩ }

theorem Follows.keepLine (h : Follows older warned k true e f) (file : OpenFile) (n : Nat)
    (expected : Text) (s : σ) : Matches older warned k true
      (e.keepLine rule strict file (n + k) expected, s)
      (f.keepLine rule strict file n expected, s) := by
  obtain ⟨hcursor, hlast⟩ := h.place rfl
  rw [Engine.keepLine, Engine.keepLine, hcursor]
  split
  · exact .error (.contextMismatch n file.path expected _) s
  · exact .ok s { h with place := fun _ => ⟨rfl, rfl⟩ }

theorem Follows.hunkLine (h : Follows older warned k true e f) {kind : TokenKind}
    (hkind : isHunkLine kind = true) (n : Nat) (load : σ → Text → Loaded × σ) (s : σ) :
    Matches older warned k true (e.read rule strict load ⟨n + k, kind⟩ s)
      (f.read rule strict (overlay older load) ⟨n, kind⟩ s) := by
  have hother := ne_newHeader_of_isHunkLine hkind
  rw [read_of_ne hother, read_of_ne hother]
  cases hopened : f.opened with
  | none =>
    rw [step_of_opened_eq_none hkind (h.opened.trans hopened), step_of_opened_eq_none hkind hopened]
    exact .ok s h
  | some file =>
    rw [step, step, h.opened, hopened]
    cases kind with
    | remove expected => exact h.removeLine file n expected s
    | add added => exact .ok s (h.addLine file added)
    | context expected => exact h.keepLine file n expected s
    | noNewline => exact .ok s (h.markEnd file)
    | oldHeader _ | newHeader _ | hunk _ | other => cases hkind

/-- One token does the same in both engines. -/
theorem Follows.read {st : LineState} (h : Follows older warned k st.inHunk e f)
    (load : σ → Text → Loaded × σ) {token : Token}
    (htoken : isHunkLine token.kind = true → st.inHunk = true) (s : σ) :
    Matches older warned k (st.after token.kind).inHunk
      (e.read rule strict load (token.shift k) s)
      (f.read rule strict (overlay older load) token s) := by
  obtain ⟨n, kind⟩ := token
  -- only the lines of hunks depend on the place
  by_cases hkind : isHunkLine kind = true
  · have hinside := htoken hkind
    have hafter : (st.after kind).inHunk = true := by
      cases kind with
      | remove _ | add _ | context _ | noNewline => exact hinside
      | oldHeader _ | newHeader _ | hunk _ | other => cases hkind
    rw [hafter]
    rw [hinside] at h
    exact h.hunkLine hkind n load s
  · cases kind with
    | oldHeader path => exact .ok s (h.oldHeader path)
    | newHeader path =>
      cases path with
      | some path => exact h.openFile load path s
      | none => exact .ok s h.skipDeletion
    | hunk header => exact .ok s (h.hunk header)
    | other =>
      rw [Token.shift, read_other, read_other]
      exact .ok s h
    | remove _ | add _ | context _ | noNewline => exact absurd rfl hkind

/-- The tokens of a patch do the same in both engines. -/
theorem Follows.run (rule : CursorRule) (strict : Bool) (load : σ → Text → Loaded × σ)
    {tokens : List Token} {st : LineState} (h : Follows older warned k st.inHunk e f)
    (htokens : InHunks st tokens) (s : σ) :
    ∃ inHunk', Matches older warned k inHunk'
      (Engine.run rule strict load (tokens.map (Token.shift k)) e s)
      (Engine.run rule strict (overlay older load) tokens f s) := by
  induction tokens generalizing st e f s with
  | nil => exact ⟨st.inHunk, .ok s h⟩
  | cons token tokens ih =>
    obtain ⟨htoken, htokens⟩ := htokens
    have hread : Matches older warned k (st.after token.kind).inHunk
        (e.read rule strict load (token.shift k) s)
        (f.read rule strict (overlay older load) token s) := h.read load htoken s
    rw [List.map_cons, run_cons_eq, run_cons_eq]
    generalize e.read rule strict load (token.shift k) s = p at hread ⊢
    generalize f.read rule strict (overlay older load) token s = q at hread ⊢
    cases hread with
    | ok s h => exact ih h htokens s
    | error err s => exact ⟨st.inHunk, .error err s⟩

end Follows

end Engine

/-! ## Patches -/

/-- The tokens of two patches are those of the first and then those of the second, further down. -/
theorem tokenize_append {first second : Text} (hfirst : first.getLast? = some Text.lf)
    (hsecond : StartsFile second) :
    tokenize (first ++ second)
      = match tokenize first with
        | .error err => .error err
        | .ok ts =>
          match tokenize second with
          | .error err => .error (err.shift (patchLines first).length)
          | .ok ts' => .ok (ts ++ ts'.map (Token.shift (patchLines first).length)) := by
  obtain ⟨old, new, rest, hlines⟩ := hsecond
  have hne : second ≠ [] := by
    rintro rfl
    cases hlines
  have hback : (patchLines second).head?.any newMark.isPrefixOf = false := by
    rw [hlines]
    rfl
  obtain ⟨st, happend⟩ := tokenizeFrom_append hback (patchLines first) ⟨false, false⟩ 1
  -- the headers take back what the first patch left open
  have hstart : tokenizeFrom st (1 + (patchLines first).length) (patchLines second)
      = tokenizeFrom ⟨false, false⟩ (1 + (patchLines first).length) (patchLines second) := by
    rw [hlines, tokenizeFrom_headers, tokenizeFrom_headers]
  rw [tokenize, patchLines_append hfirst hne, happend, hstart, tokenizeFrom_shift, tokenize, tokenize]
  cases tokenizeFrom ⟨false, false⟩ 1 (patchLines first) with
  | error err => rfl
  | ok ts =>
    cases tokenizeFrom ⟨false, false⟩ 1 (patchLines second) with
    | error err => rfl
    | ok ts' => rfl

/-- A patch that starts with the headers of a file closes what is open first. -/
theorem exists_of_tokenize {patch : Text} (h : StartsFile patch) {ts : List Token}
    (htokens : tokenize patch = .ok ts) :
    ∃ path rest, ts = ⟨1, .oldHeader path⟩ :: rest ∧ InHunks ⟨false, true⟩ rest := by
  obtain ⟨old, new, rest, hlines⟩ := h
  rw [tokenize, hlines, tokenizeFrom_headers] at htokens
  split at htokens
  · cases htokens
  · rename_i tokens hrest
    cases htokens
    exact ⟨headerPath old, tokens, rfl, inHunks_of_tokenizeFrom hrest⟩

namespace Engine

/-- What an engine that goes on has produced. -/
theorem Follows.result_eq {older : List PatchedFile} {warned : List PatchWarning} {k : Nat}
    {inHunk : Bool} {e f : Engine} (h : Follows older warned k inHunk e f) :
    e.result = ⟨ApplyResult.merge older f.result.files,
      warned ++ f.result.warnings.map (PatchWarning.shift k)⟩ := by
  rw [result, h.flush.files, h.flush.warnings]
  rfl

/-- The header of a file takes back what the engine remembers. -/
theorem follows_oldHeader (e : Engine) (k : Nat) (path : Option Text) :
    Follows e.result.files e.result.warnings k false (e.oldHeader path)
      (({} : Engine).oldHeader path) where
  files := rfl
  distinct := List.nodup_nil
  warnings := (List.append_nil _).symm
  opened := e.flush_opened
  oldPath := rfl
  creating := rfl
  place h := by cases h

/-- After the header of a file the engine goes on like one that starts afresh. -/
theorem exists_matches_run {σ : Type} (rule : CursorRule) (strict : Bool)
    (load : σ → Text → Loaded × σ) (e : Engine) (k n : Nat) (path : Option Text) {rest : List Token}
    (hrest : InHunks ⟨false, true⟩ rest) (s : σ) :
    ∃ inHunk, Matches e.result.files e.result.warnings k inHunk
      (run rule strict load ((⟨n, .oldHeader path⟩ :: rest).map (Token.shift k)) e s)
      (run rule strict (overlay e.result.files load) (⟨n, .oldHeader path⟩ :: rest) {} s) := by
  rw [List.map_cons, run_cons_eq, run_cons_eq]
  exact (e.follows_oldHeader k path).run rule strict load hrest s

end Engine

/-- A patch that is followed by one that starts with the headers of a file: the second one is applied
to what the first one leaves, and its files update and extend those of the first one. -/
theorem apply_append {σ : Type} (strict : Bool) (load : σ → Text → Loaded × σ)
    {first second : Text} (hfirst : first.getLast? = some Text.lf) (hsecond : StartsFile second)
    (hread : ∀ err, tokenize second ≠ .error err) (s : σ) :
    apply strict load (first ++ second) s
      = match apply strict load first s with
        | (.error err, s) => (.error err, s)
        | (.ok r, s) =>
          match apply strict (overlay r.files load) second s with
          | (.error err, s) => (.error (err.shift (patchLines first).length), s)
          | (.ok r', s) =>
            (.ok ⟨ApplyResult.merge r.files r'.files,
              r.warnings ++ r'.warnings.map (PatchWarning.shift (patchLines first).length)⟩, s) := by
  cases hsecondTokens : tokenize second with
  | error err => exact absurd hsecondTokens (hread err)
  | ok ts' =>
    have htokens := tokenize_append hfirst hsecond
    rw [hsecondTokens] at htokens
    cases hfirstTokens : tokenize first with
    | error err =>
      rw [hfirstTokens] at htokens
      rw [apply_of_tokenize_error hfirstTokens, apply_of_tokenize_error htokens]
    | ok ts =>
      rw [hfirstTokens] at htokens
      rw [apply_of_tokenize hfirstTokens, apply_of_tokenize htokens, Engine.run_append]
      rcases Engine.run .word strict load ts {} s with ⟨err | e, s₁⟩
      · rfl
      · obtain ⟨path, rest, rfl, hrest⟩ := exists_of_tokenize hsecond hsecondTokens
        obtain ⟨inHunk, hmatches⟩ :=
          Engine.exists_matches_run .word strict load e (patchLines first).length 1 path hrest s₁
        dsimp only
        rw [apply_of_tokenize hsecondTokens]
        generalize Engine.run .word strict load _ e s₁ = p at hmatches ⊢
        generalize Engine.run .word strict (overlay e.result.files load) _ {} s₁ = q at hmatches ⊢
        cases hmatches with
        | ok s h =>
          dsimp only
          rw [h.result_eq]
        | error err s => rfl

/-- A loader that knows one file. -/
def sampleLoad (s : Unit) (path : Text) : Loaded × Unit :=
  (if path = ['a'] then .content ['x', '\n'] else .notFound, s)

/-- The second patch finds the line that the first one leaves, and misses the one that it expects. -/
theorem apply_append_sample :
    (apply false sampleLoad ("--- a\n+++ a\n@@ -1 +1 @@\n-x\n+y\n".toList ++
      "--- a\n+++ a\n@@ -1 +1 @@\n-z\n+w\n".toList) ()).1
      = .ok ⟨[⟨['a'], "w\ny\n".toList⟩], [.removalMismatch ['a'] 9 ['z'] (some ['y'])]⟩ := by
  have hstarts : StartsFile "--- a\n+++ a\n@@ -1 +1 @@\n-z\n+w\n".toList :=
    ⟨['a'], ['a'], ["@@ -1 +1 @@".toList, ['-', 'z'], ['+', 'w']], by decide +kernel⟩
  have hread : (tokenize "--- a\n+++ a\n@@ -1 +1 @@\n-z\n+w\n".toList).isOk = true := by
    decide +kernel
  rw [apply_append false sampleLoad (by decide +kernel) hstarts
    (fun err herr => by rw [herr] at hread; cases hread) ()]
  decide +kernel

end Patch

end Mend
