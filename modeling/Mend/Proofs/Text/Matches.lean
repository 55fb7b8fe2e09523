import Mend.Proofs.Text.Lines
import Mend.Text.Match

/-!
# Matches from left to right

How the matches of a text are put together from those of its parts, for a recogniser that does not
look back (`Text.LooksAhead`): where it reads nothing the search goes on with the next character
(`Text.matchAll_cons`), and where it reads something the search goes on behind that
(`Text.matchAll_append`). For any recogniser, what is found was read somewhere in the text
(`Text.exists_of_mem_matchAll`), and behind a character that it never reads the search starts again
(`Text.matchAllFrom_append_cons`).
-/

namespace Mend

namespace Text

/-! ## Parts of recognisers -/

theorem dropChar?_eq_some_iff {c : Char} {t rest : Text} :
    dropChar? c t = some rest ↔ t = c :: rest := by
  cases t with
  | nil => simp [dropChar?]
  | cons d t =>
    rw [dropChar?]
    split
    · rename_i hc
      simp [hc]
    · rename_i hc
      simp [Ne.symm hc]

theorem run?_eq_some_iff {q : Char → Bool} {t run rest : Text} :
    run? q t = some (run, rest) ↔ t.takeWhile q = run ∧ t.dropWhile q = rest ∧ run ≠ [] := by
  rw [run?]
  cases t.takeWhile q with
  | nil =>
    constructor
    · intro h
      cases h
    · rintro ⟨rfl, -, hne⟩
      exact absurd rfl hne
  | cons c more =>
    simp only [Option.some.injEq, Prod.mk.injEq]
    constructor
    · rintro ⟨rfl, rfl⟩
      exact ⟨rfl, rfl, List.cons_ne_nil c more⟩
    · rintro ⟨rfl, rfl, -⟩
      exact ⟨rfl, rfl⟩

/-- A run and the rest of the text make the text, and the run is of its class. -/
theorem eq_append_of_run? {q : Char → Bool} {t run rest : Text} (h : run? q t = some (run, rest)) :
    t = run ++ rest ∧ ∀ c ∈ run, q c = true := by
  obtain ⟨rfl, rfl, -⟩ := run?_eq_some_iff.1 h
  exact ⟨List.takeWhile_append_dropWhile.symm, List.all_eq_true.1 List.all_takeWhile⟩

/-- A content goes up to the first closing character. -/
theorem upTo?_eq_some_iff {close : Char} {t content rest : Text} :
    upTo? close t = some (content, rest) ↔
      t = content ++ close :: rest ∧ content ≠ [] ∧ close ∉ content := by
  constructor
  · intro h
    obtain ⟨⟨front, back⟩, hrun, h⟩ := Option.bind_eq_some_iff.1 h
    obtain ⟨after, hdrop, h⟩ := Option.bind_eq_some_iff.1 h
    obtain ⟨rfl, rfl⟩ := Prod.mk.inj (Option.some.inj h)
    obtain ⟨hfront, hback, hne⟩ := run?_eq_some_iff.1 hrun
    refine ⟨?_, hne, fun hmem => ?_⟩
    · rw [← hfront, ← dropChar?_eq_some_iff.1 hdrop, ← hback]
      exact List.takeWhile_append_dropWhile.symm
    · rw [← hfront] at hmem
      have hdiff := List.all_eq_true.1 List.all_takeWhile close hmem
      simp at hdiff
  · rintro ⟨rfl, hne, hnotMem⟩
    have hall : ∀ c ∈ content, (c != close) = true := by
      intro c hc
      have hdiff : c ≠ close := fun heq => hnotMem (heq ▸ hc)
      simpa using hdiff
    have hrun : run? (· != close) (content ++ close :: rest) = some (content, close :: rest) := by
      rw [run?_eq_some_iff, List.takeWhile_append_of_pos hall, List.dropWhile_append_of_pos hall]
      simp [hne]
    rw [upTo?, hrun]
    simp [dropChar?]

/-! ## Matches -/

section Matches

variable {α : Type} {p : Recogniser α}

/-- The recogniser does not look at the character before. -/
def LooksAhead (p : Recogniser α) : Prop := ∀ before before' t, p before t = p before' t

theorem matchAllFrom_before (hp : LooksAhead p) (before before' : Option Char) (skip : Nat)
    (t : Text) : matchAllFrom p before skip t = matchAllFrom p before' skip t := by
  cases t with
  | nil => rfl
  | cons c t =>
    cases skip with
    | succ skip => rfl
    | zero => rw [matchAllFrom, matchAllFrom, hp before before']

/-- Where nothing is read the search goes on. -/
theorem matchAll_cons (hp : LooksAhead p) {c : Char} {t : Text} (h : p none (c :: t) = none) :
    matchAll p (c :: t) = matchAll p t := by
  rw [matchAll, matchAllFrom, h]
  exact matchAllFrom_before hp ..

/-- Over a text in which nothing is read the search goes on behind it. -/
theorem matchAll_skip (hp : LooksAhead p) {t : Text} (rest : Text)
    (h : ∀ c ∈ t, ∀ u, p none (c :: u) = none) : matchAll p (t ++ rest) = matchAll p rest := by
  induction t with
  | nil => rfl
  | cons c t ih =>
    rw [List.forall_mem_cons] at h
    rw [List.cons_append, matchAll_cons hp (h.1 _), ih h.2]

/-- Behind a match the search starts again. -/
theorem matchAll_append (hp : LooksAhead p) {w rest : Text} {a : α} (hw : w ≠ [])
    (h : p none (w ++ rest) = some (a, rest)) : matchAll p (w ++ rest) = a :: matchAll p rest := by
  have hskip : ∀ (w : Text) (before : Option Char),
      matchAllFrom p before w.length (w ++ rest) = matchAll p rest := by
    intro w
    induction w with
    | nil => exact fun before => matchAllFrom_before hp before none 0 rest
    | cons c w ih => exact fun before => ih (some c)
  obtain ⟨c, w, rfl⟩ := List.exists_cons_of_ne_nil hw
  have hlength : (w ++ rest).length - rest.length = w.length := by simp
  rw [List.cons_append] at h ⊢
  rw [matchAll, matchAllFrom, h]
  dsimp only
  rw [hlength, hskip w (some c)]

/-- A text has no matches when nothing is read in it anywhere. -/
theorem matchAll_eq_nil (hp : LooksAhead p) {t : Text} (h : ∀ u, u <:+ t → p none u = none) :
    matchAll p t = [] := by
  induction t with
  | nil => rfl
  | cons c t ih =>
    rw [matchAll_cons hp (h _ (List.suffix_refl _))]
    exact ih fun u hu => h u (hu.trans (List.suffix_cons c t))

/-- A text has no matches when a longer one has none, for a recogniser that reads in the longer text
what it reads in the shorter one. -/
theorem matchAll_eq_nil_of_append (hp : LooksAhead p)
    (hgrow : ∀ t u, p none (t ++ u) = none → p none t = none) {t u : Text}
    (h : matchAll p (t ++ u) = []) : matchAll p t = [] := by
  induction t with
  | nil => rfl
  | cons c t ih =>
    rw [List.cons_append, matchAll, matchAllFrom] at h
    cases hread : p none (c :: (t ++ u)) with
    | some found =>
      rw [hread] at h
      cases h
    | none =>
      rw [hread] at h
      rw [matchAll_cons hp (hgrow (c :: t) u hread)]
      exact ih ((matchAllFrom_before hp none (some c) 0 (t ++ u)).trans h)

/-- What is found was read from some position on. -/
theorem exists_of_mem_matchAllFrom {before : Option Char} {skip : Nat} {t : Text} {a : α}
    (h : a ∈ matchAllFrom p before skip t) :
    ∃ before' u after, u <:+ t ∧ p before' u = some (a, after) := by
  induction t generalizing before skip with
  | nil => cases h
  | cons c t ih =>
    have hrest : ∀ {skip : Nat}, a ∈ matchAllFrom p (some c) skip t →
        ∃ before' u after, u <:+ c :: t ∧ p before' u = some (a, after) := by
      intro skip hmem
      obtain ⟨before', u, after, hu, hread⟩ := ih hmem
      exact ⟨before', u, after, hu.trans (List.suffix_cons c t), hread⟩
    cases skip with
    | succ skip => exact hrest h
    | zero =>
      rw [matchAllFrom] at h
      split at h
      · rename_i b after hread
        rcases List.mem_cons.1 h with rfl | hmem
        · exact ⟨before, c :: t, after, List.suffix_refl _, hread⟩
        · exact hrest hmem
      · exact hrest h

theorem exists_of_mem_matchAll {t : Text} {a : α} (h : a ∈ matchAll p t) :
    ∃ before u after, u <:+ t ∧ p before u = some (a, after) :=
  exists_of_mem_matchAllFrom h

/-- What the recogniser reads is not empty, and the character is not in it. -/
def PassesNo (p : Recogniser α) (c : Char) : Prop :=
  ∀ before t a after, p before t = some (a, after) → ∃ w, t = w ++ after ∧ w ≠ [] ∧ c ∉ w

/-- A front part without a character ends before it. -/
theorem length_le_of_notMem {c : Char} {u v w after : Text} (h : u ++ c :: v = w ++ after)
    (hc : c ∉ w) : w.length ≤ u.length := by
  rcases List.append_eq_append_iff.1 h with ⟨as, rfl, has⟩ | ⟨bs, rfl, -⟩
  · cases as with
    | nil => simp
    | cons d as =>
      obtain rfl : c = d := (List.cons.inj has).1
      exact absurd (List.mem_append_right _ (List.mem_cons_self ..)) hc
  · simp

/-- Behind a character that is never read the search starts again. -/
theorem matchAllFrom_append_cons {c : Char} (hp : PassesNo p c) (v : Text) {u : Text} {skip : Nat}
    (hskip : skip ≤ u.length) (before : Option Char) :
    ∃ as, matchAllFrom p before skip (u ++ c :: v) = as ++ matchAllFrom p (some c) 0 v := by
  induction u generalizing skip before with
  | nil =>
    obtain rfl : skip = 0 := Nat.le_zero.1 hskip
    refine ⟨[], ?_⟩
    rw [List.nil_append, List.nil_append, matchAllFrom]
    cases hread : p before (c :: v) with
    | none => rfl
    | some found =>
      -- a match would start with the character
      obtain ⟨w, hw, hne, hnotMem⟩ := hp before _ found.1 found.2 hread
      obtain ⟨d, w, rfl⟩ := List.exists_cons_of_ne_nil hne
      obtain rfl : c = d := (List.cons.inj hw).1
      exact absurd (List.mem_cons_self ..) hnotMem
  | cons d u ih =>
    rw [List.cons_append]
    cases skip with
    | succ skip => exact ih (Nat.le_of_succ_le_succ hskip) (some d)
    | zero =>
      rw [matchAllFrom]
      cases hread : p before (d :: (u ++ c :: v)) with
      | none => exact ih (Nat.zero_le _) (some d)
      | some found =>
        obtain ⟨a, after⟩ := found
        obtain ⟨w, hw, hne, hnotMem⟩ := hp before _ a after hread
        have hle : w.length ≤ (d :: u).length := length_le_of_notMem hw hnotMem
        have hlength := congrArg List.length hw
        simp only [List.length_cons, List.length_append] at hlength hle
        dsimp only
        simp only [List.length_cons, List.length_append]
        obtain ⟨as, has⟩ := @ih (u.length + (v.length + 1) - after.length) (by omega) (some d)
        exact ⟨a :: as, by rw [has, List.cons_append]⟩

end Matches

end Text

end Mend
