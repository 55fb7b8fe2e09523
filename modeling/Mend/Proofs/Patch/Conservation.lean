import Mathlib.Data.List.Basic
import Mend.Proofs.Patch.Modes

/-!
# Conservation of lines

A block of a patch is the header of a new side with the lines up to the next file header
(`Patch.Block`). In the tolerant mode a block neither loses nor duplicates lines of its file
(`Patch.apply_conserves`), wherever its hunks start, however they overlap and whatever their context
lines say:

- each removal line of the block (`Patch.Removal`) deletes the line at the cursor, when that is the
  line that it expects, and else leaves the file alone and gives one warning;
- each text stands in the file as often as before, less its matched removals and more its additions;
- but for one line a matched removal, the lines of the file are still there and in their order.

`Patch.Engine.Effect` says what one line of a block does, and the statement on blocks is an
induction over their lines.
-/

namespace Mend

namespace Patch

/-! ## Blocks -/

/-- Whether a token is the header of a side. -/
def isFileHeader : TokenKind → Bool
  | .oldHeader _ | .newHeader _ => true
  | _ => false

/-- Whether a token is a removal line. -/
def isRemovalLine : TokenKind → Bool
  | .remove _ => true
  | _ => false

/-- The text of an added line. -/
def addedText? : TokenKind → Option Text
  | .add t => some t
  | _ => none

/-- A block among the tokens of a patch: the header of a new side with a path, and what follows up
to the next file header or the end. -/
structure Block (tokens : List Token) where
  /-- The tokens before the block. -/
  front : List Token
  /-- The number of the line of the header. -/
  number : Nat
  /-- The path of the header. -/
  path : Text
  /-- The tokens after the header. -/
  body : List Token
  /-- The tokens after the block. -/
  back : List Token
  tokens_eq : tokens = front ++ ⟨number, .newHeader (some path)⟩ :: (body ++ back)
  isFileHeader_body : ∀ t ∈ body, isFileHeader t.kind = false
  /-- A file header ends the block. -/
  isFileHeader_back : ∀ t ∈ back.head?, isFileHeader t.kind = true

/-- A removal line of a patch, and the open file when it is read. -/
structure Removal where
  /-- The number of the line in the patch. -/
  line : Nat
  /-- The text that it removes. -/
  expected : Text
  /-- The place in the file that it is about. -/
  cursor : Nat
  /-- The lines of the file before. -/
  before : List Text
  /-- The lines of the file after. -/
  after : List Text
  deriving DecidableEq, Repr

namespace Removal

/-- The line of the file at the cursor. -/
def found (r : Removal) : Option Text := r.before[r.cursor]?

/-- Whether the line at the cursor is the one to remove. -/
def isMatched (r : Removal) : Bool := r.found = some r.expected

/-- The token that the removal line is read as. -/
def token (r : Removal) : Token := ⟨r.line, .remove r.expected⟩

/-- The warning of a removal line that does not match. -/
def warning (path : Text) (r : Removal) : PatchWarning :=
  .removalMismatch path r.line r.expected r.found

/-- A removal line deletes one line equal to it, or it leaves the file alone. -/
structure Deletes (r : Removal) : Prop where
  matched : r.isMatched = true → ∃ front back, r.before = front ++ r.expected :: back ∧
    front.length = r.cursor ∧ r.after = front ++ back
  unmatched : r.isMatched = false → r.after = r.before

/-- The texts of the removal lines that match. -/
def matchedTexts (rs : List Removal) : List Text := (rs.filter isMatched).map expected

/-- The warnings of the removal lines that do not match. -/
def warnings (path : Text) (rs : List Removal) : List PatchWarning :=
  (rs.filter fun r => !r.isMatched).map (warning path)

variable {r : Removal}

theorem matchedTexts_cons_of_matched (h : r.isMatched = true) (rs : List Removal) :
    matchedTexts (r :: rs) = r.expected :: matchedTexts rs := by
  rw [matchedTexts, List.filter_cons_of_pos h, List.map_cons, matchedTexts]

theorem matchedTexts_cons_of_unmatched (h : r.isMatched = false) (rs : List Removal) :
    matchedTexts (r :: rs) = matchedTexts rs := by
  rw [matchedTexts, List.filter_cons_of_neg (by simp [h]), matchedTexts]

theorem warnings_cons_of_matched (h : r.isMatched = true) (path : Text) (rs : List Removal) :
    warnings path (r :: rs) = warnings path rs := by
  rw [warnings, List.filter_cons_of_neg (by simp [h]), warnings]

theorem warnings_cons_of_unmatched (h : r.isMatched = false) (path : Text) (rs : List Removal) :
    warnings path (r :: rs) = r.warning path :: warnings path rs := by
  rw [warnings, List.filter_cons_of_pos (by simp [h]), List.map_cons, warnings]

end Removal

namespace Engine

/-- The lines of the open file. -/
def lines (e : Engine) : List Text := (e.opened.map fun f => f.buffer.lines).getD []

/-- The removal lines among the tokens of a block, each with what the tolerant mode makes of it. -/
def removals (rule : CursorRule) : List Token → Engine → List Removal
  | [], _ => []
  | ⟨n, kind⟩ :: rest, e =>
    match e.step rule false ⟨n, kind⟩ with
    | .error _ => []
    | .ok e' =>
      match kind with
      | .remove expected => ⟨n, expected, e.cursor, e.lines, e'.lines⟩ :: removals rule rest e'
      | _ => removals rule rest e'

end Engine

/-- How the lines `before` of a file become the lines `after`, given the body of a block and its
removal lines. -/
structure Conserves (body : List Token) (removals : List Removal) (before after : List Text) :
    Prop where
  /-- The removal lines are those of the body, in their order. -/
  tokens_eq : removals.map Removal.token = body.filter fun t => isRemovalLine t.kind
  deletes : ∀ r ∈ removals, r.Deletes
  count_eq : ∀ t, after.count t + (Removal.matchedTexts removals).count t
    = before.count t + (body.filterMap fun t => addedText? t.kind).count t
  /-- The lines that are left alone keep their order. -/
  exists_kept : ∃ kept : List Text, kept.Sublist before ∧ kept.Sublist after ∧
    before.length ≤ kept.length + (Removal.matchedTexts removals).length

/-! ## One line -/

/-- A part of a list of which one element is taken out loses at most one element. -/
theorem exists_sublist_eraseIdx {α : Type} {kept lines : List α} (h : kept.Sublist lines)
    (i : Nat) :
    ∃ kept' : List α, kept'.Sublist kept ∧ kept'.Sublist (lines.eraseIdx i) ∧
      kept.length ≤ kept'.length + 1 := by
  induction h generalizing i with
  | slnil => exact ⟨[], .slnil, .slnil, Nat.le_succ _⟩
  | @cons kept lines a hsub ih =>
    cases i with
    | zero => exact ⟨kept, .refl kept, hsub, Nat.le_succ _⟩
    | succ i =>
      obtain ⟨kept', hkept, hlines, hlength⟩ := ih i
      exact ⟨kept', hkept, hlines.cons a, hlength⟩
  | @cons_cons kept lines a hsub ih =>
    cases i with
    | zero =>
      -- the element that is taken out was one of the part
      exact ⟨kept, List.sublist_cons_self a kept, hsub, Nat.le_refl _⟩
    | succ i =>
      obtain ⟨kept', hkept, hlines, hlength⟩ := ih i
      refine ⟨a :: kept', hkept.cons_cons a, hlines.cons_cons a, ?_⟩
      simpa using hlength

/-- The element at a place, with what is before and after it. -/
theorem exists_append_of_getElem? {α : Type} {lines : List α} {i : Nat} {a : α}
    (h : lines[i]? = some a) : ∃ front back, lines = front ++ a :: back ∧ front.length = i ∧
      lines.eraseIdx i = front ++ back := by
  obtain ⟨hlt, hget⟩ := List.getElem?_eq_some_iff.1 h
  refine ⟨lines.take i, lines.drop (i + 1), ?_, ?_, List.eraseIdx_eq_take_drop_succ ..⟩
  · rw [← hget, List.getElem_cons_drop, List.take_append_drop]
  · rw [List.length_take]
    omega

namespace Engine

variable {rule : CursorRule} {e e' : Engine} {f : OpenFile} {n : Nat}

theorem lines_of_opened (h : e.opened = some f) : e.lines = f.buffer.lines := by
  rw [lines, h, Option.map_some, Option.getD_some]

/-- What a line of a block does to the open file `f` and to the warnings. -/
inductive Effect (e : Engine) (f : OpenFile) (n : Nat) : TokenKind → Engine → Prop
  /-- A removal line finds its text and deletes it. -/
  | deleted {expected : Text} {e' : Engine} {lines : List Text}
      (found : f.buffer.lines[e.cursor]? = some expected)
      (lines_eq : lines = f.buffer.lines.eraseIdx e.cursor)
      (opened : e'.opened = some { f with buffer := { f.buffer with lines } })
      (warnings : e'.warnings = e.warnings) : Effect e f n (.remove expected) e'
  /-- A removal line finds another text, or none. -/
  | skipped {expected : Text} {e' : Engine}
      (found : f.buffer.lines[e.cursor]? ≠ some expected) (opened : e'.opened = some f)
      (warnings : e'.warnings
        = e.warnings ++ [.removalMismatch f.path n expected f.buffer.lines[e.cursor]?]) :
      Effect e f n (.remove expected) e'
  /-- A line is added somewhere. -/
  | added {text : Text} {e' : Engine} {place : Nat} {lines : List Text}
      (place_le : place ≤ f.buffer.lines.length)
      (lines_eq : lines = f.buffer.lines.insertIdx place text)
      (opened : e'.opened = some { f with buffer := { f.buffer with lines } })
      (warnings : e'.warnings = e.warnings) : Effect e f n (.add text) e'
  /-- The other lines leave the lines of the file alone. -/
  | passed {kind : TokenKind} {e' : Engine} {ended : Bool}
      (not_removal : isRemovalLine kind = false) (not_added : addedText? kind = none)
      (opened : e'.opened = some { f with buffer := { f.buffer with ended } })
      (warnings : e'.warnings = e.warnings) : Effect e f n kind e'

/-- In the tolerant mode each line of a block has one of the four effects. -/
theorem exists_effect (rule : CursorRule) (hopened : e.opened = some f) (n : Nat)
    {kind : TokenKind} (hkind : isFileHeader kind = false) :
    ∃ e', e.step rule false ⟨n, kind⟩ = .ok e' ∧ Effect e f n kind e' := by
  cases kind with
  | oldHeader path => cases hkind
  | newHeader path => cases hkind
  | remove expected =>
    have hstep : e.step rule false ⟨n, .remove expected⟩ = e.removeLine false f n expected := by
      rw [step, hopened]
    by_cases hfound : f.buffer.lines[e.cursor]? = some expected
    · let buffer := { f.buffer with lines := f.buffer.lines.eraseIdx e.cursor }
      refine ⟨{ e with last := .removed, opened := some { f with buffer } }, ?_,
        .deleted hfound rfl rfl rfl⟩
      rw [hstep, removeLine, if_pos hfound]
    · refine ⟨{ e.warn (.removalMismatch f.path n expected f.buffer.lines[e.cursor]?) with
        last := .removed }, ?_, .skipped hfound hopened rfl⟩
      rw [hstep, removeLine, if_neg hfound, if_neg Bool.false_ne_true]
  | add text =>
    refine ⟨e.addLine f text, ?_, .added (Nat.min_le_right ..) rfl rfl rfl⟩
    rw [step, hopened]
  | context expected =>
    -- the cursor moves on whether or not the line is the expected one
    refine ⟨{ e with last := .kept, cursor := rule.advance e.cursor }, ?_,
      .passed rfl rfl hopened rfl⟩
    simp only [step, hopened, keepLine, Bool.false_and, if_neg Bool.false_ne_true]
  | noNewline =>
    refine ⟨e.markEnd f, ?_, .passed rfl rfl rfl rfl⟩
    rw [step, hopened]
  | hunk header =>
    exact ⟨{ e with cursor := header.cursor, last := .kept }, rfl, .passed rfl rfl hopened rfl⟩
  | other =>
    refine ⟨e, ?_, .passed rfl rfl hopened rfl⟩
    rw [step]

/-- A file that is opened has the path that it is opened for, and the lines of a content, which is empty
for a file that is not there. -/
theorem exists_of_openFile {σ : Type} (load : σ → Text → Loaded × σ) {path : Text} {s : σ}
    (h : (e.openFile load path s).1.opened = some f) :
    ∃ t present, f = ⟨path, .ofContent t, present⟩ := by
  have hloaded : ∀ {ready : Engine} {creating : Bool} {known : Loaded}, ready.opened = none →
      (ready.openLoaded path creating known).opened = some f →
      ∃ t present, f = ⟨path, .ofContent t, present⟩ := by
    intro ready creating known hready hopened
    cases known with
    | content t =>
      cases hopened
      exact ⟨t, true, rfl⟩
    | notFound =>
      cases creating with
      | true =>
        cases hopened
        exact ⟨[], true, rfl⟩
      | false =>
        cases hopened
        exact ⟨[], false, rfl⟩
    | unreadable reason =>
      -- nothing is opened for a file that cannot be read
      rw [openLoaded, warn, hready] at hopened
      cases hopened
  rw [openFile] at h
  dsimp only at h
  have hready : ({ e.flush with creating := false, cursor := 0 } : Engine).opened = none :=
    e.flush_opened
  split at h
  · exact hloaded hready h
  · exact hloaded hready h

theorem path_of_openFile {σ : Type} (load : σ → Text → Loaded × σ) {path : Text} {s : σ}
    (h : (e.openFile load path s).1.opened = some f) : f.path = path := by
  obtain ⟨t, present, rfl⟩ := exists_of_openFile load h
  rfl

end Engine

/-! ## The lines of a block -/

section Conserves

variable {body : List Token} {rs : List Removal} {lines after : List Text} {n : Nat}

theorem Conserves.nil (lines : List Text) : Conserves [] [] lines lines where
  tokens_eq := rfl
  deletes r hr := by cases hr
  count_eq t := rfl
  exists_kept := ⟨lines, .refl lines, .refl lines, Nat.le_refl _⟩

/-- A removal line that matches, before other lines. -/
theorem Conserves.deleted {r : Removal} (hmatched : r.isMatched = true)
    (hafter : r.after = r.before.eraseIdx r.cursor) (h : Conserves body rs r.after after) :
    Conserves (r.token :: body) (r :: rs) r.before after := by
  have hfound : r.before[r.cursor]? = some r.expected := of_decide_eq_true hmatched
  obtain ⟨front, back, hbefore, hfront, herase⟩ := exists_append_of_getElem? hfound
  have hleft : r.after = front ++ back := hafter.trans herase
  refine ⟨?_, ?_, ?_, ?_⟩
  · rw [List.map_cons, h.tokens_eq]
    rfl
  · refine List.forall_mem_cons.2 ⟨⟨fun _ => ⟨front, back, hbefore, hfront, hleft⟩, ?_⟩, h.deletes⟩
    intro hunmatched
    exact absurd (hmatched.symm.trans hunmatched) Bool.noConfusion
  · intro t
    -- the line that is gone is counted among the matched ones
    have hcount := h.count_eq t
    rw [hleft, List.count_append] at hcount
    rw [Removal.matchedTexts_cons_of_matched hmatched, hbefore, List.count_append, List.count_cons,
      List.count_cons]
    change _ = _ + (body.filterMap _).count t
    omega
  · -- the same lines are kept, and the bound has room for the one that is gone
    obtain ⟨kept, hkept, hkeptAfter, hlength⟩ := h.exists_kept
    refine ⟨kept, hkept.trans ?_, hkeptAfter, ?_⟩
    · rw [hafter]
      exact List.eraseIdx_sublist ..
    · rw [hleft, List.length_append] at hlength
      rw [Removal.matchedTexts_cons_of_matched hmatched, hbefore, List.length_append,
        List.length_cons, List.length_cons]
      omega

/-- A removal line that does not match, before other lines. -/
theorem Conserves.skipped {r : Removal} (hmatched : r.isMatched = false)
    (hafter : r.after = r.before) (h : Conserves body rs r.after after) :
    Conserves (r.token :: body) (r :: rs) r.before after := by
  rw [hafter] at h
  refine ⟨?_, ?_, ?_, ?_⟩
  · rw [List.map_cons, h.tokens_eq]
    rfl
  · refine List.forall_mem_cons.2 ⟨⟨fun hm => ?_, fun _ => hafter⟩, h.deletes⟩
    exact absurd (hmatched.symm.trans hm) Bool.noConfusion
  · rw [Removal.matchedTexts_cons_of_unmatched hmatched]
    exact h.count_eq
  · rw [Removal.matchedTexts_cons_of_unmatched hmatched]
    exact h.exists_kept

/-- An added line, before other lines. -/
theorem Conserves.added {text : Text} {place : Nat} (hplace : place ≤ lines.length)
    (h : Conserves body rs (lines.insertIdx place text) after) :
    Conserves (⟨n, .add text⟩ :: body) rs lines after := by
  refine ⟨h.tokens_eq, h.deletes, ?_, ?_⟩
  · intro t
    have hcount := h.count_eq t
    have hinsert := (List.perm_insertIdx text lines hplace).count_eq t
    rw [List.count_cons] at hinsert
    have hbody : ((⟨n, .add text⟩ :: body).filterMap fun t => addedText? t.kind)
        = text :: body.filterMap fun t => addedText? t.kind := rfl
    rw [hbody, List.count_cons]
    omega
  · -- the added line may be the only one of those that are kept which was not there before
    obtain ⟨kept, hbefore, hafter, hlength⟩ := h.exists_kept
    obtain ⟨kept', hkept, hlines, hless⟩ := exists_sublist_eraseIdx hbefore place
    rw [List.eraseIdx_insertIdx_self] at hlines
    refine ⟨kept', hlines, hkept.trans hafter, ?_⟩
    rw [List.length_insertIdx, if_pos hplace] at hlength
    omega

/-- Another line, before other lines. -/
theorem Conserves.passed {kind : TokenKind} (hremoval : isRemovalLine kind = false)
    (hadded : addedText? kind = none) (h : Conserves body rs lines after) :
    Conserves (⟨n, kind⟩ :: body) rs lines after := by
  refine ⟨?_, h.deletes, ?_, h.exists_kept⟩
  · rw [List.filter_cons_of_neg (by simp [hremoval])]
    exact h.tokens_eq
  · intro t
    have hbody : ((⟨n, kind⟩ :: body).filterMap fun t => addedText? t.kind)
        = body.filterMap fun t => addedText? t.kind := List.filterMap_cons_none hadded
    rw [hbody]
    exact h.count_eq t

end Conserves

namespace Engine

variable {σ : Type} {rule : CursorRule} {load : σ → Text → Loaded × σ} {e e' : Engine}
  {f : OpenFile}

/-- A removal line is recorded, and the rest is read from the engine that it leaves. -/
theorem removals_remove {n : Nat} {expected : Text}
    (h : e.step rule false ⟨n, .remove expected⟩ = .ok e') (rest : List Token) :
    e.removals rule (⟨n, .remove expected⟩ :: rest)
      = ⟨n, expected, e.cursor, e.lines, e'.lines⟩ :: e'.removals rule rest := by
  rw [removals, h]

theorem removals_of_not_removal {n : Nat} {kind : TokenKind} (hkind : isRemovalLine kind = false)
    (h : e.step rule false ⟨n, kind⟩ = .ok e') (rest : List Token) :
    e.removals rule (⟨n, kind⟩ :: rest) = e'.removals rule rest := by
  rw [removals, h]
  cases kind with
  | remove expected => cases hkind
  | _ => rfl

/-- The body of a block is read to its end: the file stays open, its lines are conserved, and the
warnings are those of the removal lines that do not match. -/
theorem exists_conserves (rule : CursorRule) (load : σ → Text → Loaded × σ) {body : List Token}
    (hbody : ∀ t ∈ body, isFileHeader t.kind = false) (hopened : e.opened = some f) (s : σ) :
    ∃ e' buffer, run rule false load body e s = (.ok e', s) ∧
      e'.opened = some { f with buffer } ∧
      e'.warnings = e.warnings ++ Removal.warnings f.path (e.removals rule body) ∧
      Conserves body (e.removals rule body) f.buffer.lines buffer.lines := by
  -- induction on the body, with the file as it is before its first line
  induction body generalizing e f with
  | nil => exact ⟨e, f.buffer, rfl, hopened, (List.append_nil _).symm, .nil _⟩
  | cons token body ih =>
    obtain ⟨n, kind⟩ := token
    rw [List.forall_mem_cons] at hbody
    obtain ⟨e₁, hstep, heffect⟩ := exists_effect rule hopened n hbody.1
    have hkind : ∀ path, kind ≠ .newHeader (some path) := by
      rintro path rfl
      cases hbody.1
    have hlines := lines_of_opened hopened
    -- the rest of the body is read from where the first line leaves the engine
    have hrun : ∀ e', run rule false load body e₁ s = (.ok e', s) →
        run rule false load (⟨n, kind⟩ :: body) e s = (.ok e', s) :=
      fun e' hrest => (run_cons load hkind hstep body s).trans hrest
    cases heffect with
    | @deleted expected _ lines found lines_eq opened warnings =>
      obtain ⟨e', buffer, hrest, hopened', hwarnings, hconserves⟩ := ih hbody.2 opened
      rw [← lines_of_opened opened] at hconserves
      have hmatched : Removal.isMatched ⟨n, expected, e.cursor, e.lines, e₁.lines⟩ = true := by
        rw [Removal.isMatched, Removal.found, hlines]
        exact decide_eq_true found
      refine ⟨e', buffer, hrun e' hrest, hopened', ?_, ?_⟩
      · rw [removals_remove hstep, Removal.warnings_cons_of_matched hmatched, hwarnings, warnings]
      · rw [removals_remove hstep, ← hlines]
        refine .deleted hmatched ?_ hconserves
        rw [lines_of_opened opened, hlines]
        exact lines_eq
    | @skipped expected _ found opened warnings =>
      obtain ⟨e', buffer, hrest, hopened', hwarnings, hconserves⟩ := ih hbody.2 opened
      rw [← lines_of_opened opened] at hconserves
      have hmatched : Removal.isMatched ⟨n, expected, e.cursor, e.lines, e₁.lines⟩ = false := by
        rw [Removal.isMatched, Removal.found, hlines]
        exact decide_eq_false found
      refine ⟨e', buffer, hrun e' hrest, hopened', ?_, ?_⟩
      · rw [removals_remove hstep, Removal.warnings_cons_of_unmatched hmatched, hwarnings, warnings,
          List.append_assoc, List.singleton_append, Removal.warning, Removal.found, hlines]
      · rw [removals_remove hstep, ← hlines]
        refine .skipped hmatched ?_ hconserves
        rw [lines_of_opened opened, hlines]
    | @added text _ place lines place_le lines_eq opened warnings =>
      obtain ⟨e', buffer, hrest, hopened', hwarnings, hconserves⟩ := ih hbody.2 opened
      refine ⟨e', buffer, hrun e' hrest, hopened', ?_, ?_⟩
      · rw [removals_of_not_removal rfl hstep, hwarnings, warnings]
      · rw [removals_of_not_removal rfl hstep]
        refine .added place_le ?_
        rw [← lines_eq]
        exact hconserves
    | passed not_removal not_added opened warnings =>
      obtain ⟨e', buffer, hrest, hopened', hwarnings, hconserves⟩ := ih hbody.2 opened
      refine ⟨e', buffer, hrun e' hrest, hopened', ?_, ?_⟩
      · rw [removals_of_not_removal not_removal hstep, hwarnings, warnings]
      · rw [removals_of_not_removal not_removal hstep]
        exact .passed not_removal not_added hconserves

/-! ## The end of a block -/

/-- A file header finishes the open file before all else. -/
theorem read_flush {token : Token} (htoken : isFileHeader token.kind = true) (strict : Bool)
    (e : Engine) (s : σ) :
    e.flush.read rule strict load token s = e.read rule strict load token s := by
  have hflush : e.flush.flush = e.flush := flush_of_opened_eq_none e.flush_opened
  obtain ⟨n, kind⟩ := token
  cases kind with
  | oldHeader path =>
    rw [read_of_ne (by simp), read_of_ne (by simp)]
    simp only [step, Engine.oldHeader, hflush]
  | newHeader path =>
    cases path with
    | none =>
      rw [read_of_ne (by simp), read_of_ne (by simp)]
      simp only [step, skipDeletion, hflush]
    | some path =>
      show (Except.ok (e.flush.openFile load path s).1, (e.flush.openFile load path s).2) = _
      rw [openFile, hflush]
      rfl
  | _ => cases htoken

/-- What comes after a block starts from the finished file, and gives a warning no further. -/
theorem exists_result (rule : CursorRule) (load : σ → Text → Loaded × σ) {back : List Token}
    (hback : ∀ t ∈ back.head?, isFileHeader t.kind = true) (e : Engine) (s : σ) :
    ∃ e₁ e₂ s' later, run rule false load back e s = (.ok e₁, s') ∧
      run rule false load back e.flush s = (.ok e₂, s') ∧ e₁.result = e₂.result ∧
      e₂.result.warnings = e.warnings ++ later := by
  obtain ⟨e₂, s', later, hrun, hwarnings, -⟩ := exists_run_tolerant rule load back e.flush s
  rw [flush_warnings] at hwarnings
  have hresult : e₂.result.warnings = e.warnings ++ later := (flush_warnings e₂).trans hwarnings
  cases back with
  | nil =>
    -- at the end of a patch the result finishes the file
    cases hrun
    refine ⟨e, e.flush, s, later, rfl, rfl, ?_, hresult⟩
    rw [result, result, flush_of_opened_eq_none e.flush_opened]
  | cons token back =>
    have htoken : isFileHeader token.kind = true := hback token rfl
    refine ⟨e₂, e₂, s', later, ?_, hrun, rfl, hresult⟩
    rw [run_cons_eq, ← read_flush htoken, ← run_cons_eq]
    exact hrun

end Engine

/-! ## Patches -/

/-- In the tolerant mode a block of a patch conserves the lines of its file, between the header that
opens it and the end of the block where it is finished: they become those of the file, with the
removals that match, the additions, and a warning for each other removal. -/
theorem apply_conserves {σ : Type} (load : σ → Text → Loaded × σ) {patch : Text}
    {tokens : List Token} (htokens : tokenize patch = .ok tokens) (b : Block tokens) (s : σ) :
    ∃ e₀ s₀, Engine.run .word false load b.front {} s = (.ok e₀, s₀) ∧
      ∀ e₁ s₁ f, e₀.openFile load b.path s₀ = (e₁, s₁) → e₁.opened = some f →
        ∃ e₂ buffer, Engine.run .word false load b.body e₁ s₁ = (.ok e₂, s₁) ∧
          e₂.opened = some ⟨b.path, buffer, f.present⟩ ∧
          Conserves b.body (e₁.removals .word b.body) f.buffer.lines buffer.lines ∧
          e₂.warnings
            = e₁.warnings ++ Removal.warnings b.path (e₁.removals .word b.body) ∧
          ∃ e₃ s₃ later, Engine.run .word false load b.back e₂.flush s₁ = (.ok e₃, s₃) ∧
            apply false load patch s = (.ok e₃.result, s₃) ∧
            e₃.result.warnings = e₂.warnings ++ later := by
  obtain ⟨e₀, s₀, -, hfront, -, -⟩ := Engine.exists_run_tolerant .word load b.front {} s
  refine ⟨e₀, s₀, hfront, ?_⟩
  intro e₁ s₁ f hopen hopened
  have hpath : f.path = b.path := by
    have hopened₁ : (e₀.openFile load b.path s₀).1.opened = some f := by
      rw [hopen]
      exact hopened
    exact Engine.path_of_openFile load hopened₁
  obtain ⟨e₂, buffer, hbody, hopened₂, hwarnings, hconserves⟩ :=
    Engine.exists_conserves .word load b.isFileHeader_body hopened s₁
  rw [hpath] at hwarnings hopened₂
  refine ⟨e₂, buffer, hbody, hopened₂, hconserves, hwarnings, ?_⟩
  obtain ⟨e, e₃, s₃, later, hback, hflushed, hresult, hlater⟩ :=
    Engine.exists_result .word load b.isFileHeader_back e₂ s₁
  refine ⟨e₃, s₃, later, hflushed, ?_, hlater⟩
  -- the whole run: the front, the header, the body and the back
  have hheader : Engine.run .word false load
      (⟨b.number, .newHeader (some b.path)⟩ :: (b.body ++ b.back)) e₀ s₀
      = Engine.run .word false load (b.body ++ b.back) e₁ s₁ := by
    rw [Engine.run, hopen]
  have hrun : Engine.run .word false load tokens {} s = (.ok e, s₃) := by
    rw [b.tokens_eq, Engine.run_append, hfront]
    dsimp only
    rw [hheader, Engine.run_append, hbody]
    exact hback
  rw [apply_of_tokenize htokens, hrun, ← hresult]

/-- A block with a removal that matches, one that does not, and two additions of the same text. -/
def sampleTokens : List Token :=
  [⟨1, .newHeader (some ['f'])⟩, ⟨2, .hunk ⟨1, 1, 1, 1⟩⟩, ⟨3, .remove ['a']⟩, ⟨4, .remove ['z']⟩,
    ⟨5, .add ['b']⟩, ⟨6, .add ['b']⟩]

/-- The block that all of the tokens are. -/
def sampleBlock : Block sampleTokens where
  front := []
  number := 1
  path := ['f']
  body := sampleTokens.tail
  back := []
  tokens_eq := rfl
  isFileHeader_body := by decide
  isFileHeader_back := by decide

/-- The second removal finds the line behind the one that the first removal deletes. -/
theorem apply_conserves_sample :
    Conserves sampleBlock.body
      [⟨3, ['a'], 0, [['a'], ['c']], [['c']]⟩, ⟨4, ['z'], 0, [['c']], [['c']]⟩]
      [['a'], ['c']] [['b'], ['b'], ['c']] := by
  have htokens : tokenize "+++ f\n@@ -1 +1 @@\n-a\n-z\n+b\n+b\n".toList = .ok sampleTokens := by
    decide +kernel
  obtain ⟨e₀, s₀, hfront, hblock⟩ :=
    apply_conserves (fun s _ => (.content "a\nc\n".toList, s)) htokens sampleBlock ()
  cases hfront
  obtain ⟨e₂, buffer, hbody, hopened, hconserves, -⟩ := hblock _ _ _ rfl rfl
  cases hbody
  cases hopened
  exact hconserves

end Patch

end Mend
