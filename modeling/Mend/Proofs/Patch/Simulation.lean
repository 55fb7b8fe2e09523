import Mend.Patch.Apply

/-!
# Loaders with related states

A patch that is applied with two loaders has one result, when the loaders answer alike and keep
their states related (`Patch.apply_agrees`). With a relation of a state to itself this is an
invariant of the loader; with a projection, one loader is the other with more to remember.
-/

namespace Mend

/-- Two results with their states: the results are the same, the states are related. -/
structure Agrees {α σ τ : Type} (R : σ → τ → Prop) (p : α × σ) (q : α × τ) : Prop where
  eq : p.1 = q.1
  rel : R p.2 q.2

namespace Agrees

variable {α σ τ : Type} {R : σ → τ → Prop}

theorem of_rel {s : σ} {t : τ} (h : R s t) (a : α) : Agrees R (a, s) (a, t) := ⟨rfl, h⟩

/-- The common result and the two states. -/
theorem exists_eq {p : α × σ} {q : α × τ} (h : Agrees R p q) :
    ∃ a s t, p = (a, s) ∧ q = (a, t) ∧ R s t := by
  obtain ⟨a, s⟩ := p
  obtain ⟨b, t⟩ := q
  obtain ⟨heq, hrel⟩ := h
  obtain rfl : a = b := heq
  exact ⟨a, s, t, rfl, rfl, hrel⟩

/-- The same for results that carry a part of the state. -/
theorem exists_eq_pair {β : Type} {p : α × β × σ} {q : α × β × τ} (h : Agrees (Agrees R) p q) :
    ∃ a b s t, p = (a, b, s) ∧ q = (a, b, t) ∧ R s t := by
  obtain ⟨a, r, r', rfl, rfl, hrest⟩ := h.exists_eq
  obtain ⟨b, s, t, rfl, rfl, hrel⟩ := hrest.exists_eq
  exact ⟨a, b, s, t, rfl, rfl, hrel⟩

end Agrees

namespace Patch

variable {σ τ : Type} {R : σ → τ → Prop} {load : σ → Text → Loaded × σ}
  {other : τ → Text → Loaded × τ}

namespace Engine

/-- A token that opens no file is a step. -/
theorem run_cons_of_ne {rule : CursorRule} {strict : Bool} {kind : TokenKind}
    (hkind : ∀ path, kind ≠ .newHeader (some path)) (load : σ → Text → Loaded × σ) (line : Nat)
    (tokens : List Token) (e : Engine) (s : σ) :
    run rule strict load (⟨line, kind⟩ :: tokens) e s
      = match e.step rule strict ⟨line, kind⟩ with
        | .error err => (.error err, s)
        | .ok e => run rule strict load tokens e s := by
  cases kind with
  | newHeader path =>
    cases path with
    | none => rfl
    | some path => exact absurd rfl (hkind path)
  | _ => rfl

/-- The engine opens the same file. -/
theorem openFile_agrees {path : Text}
    (h : ∀ {s t}, R s t → Agrees R (load s path) (other t path)) (e : Engine) {s : σ} {t : τ}
    (hst : R s t) : Agrees R (e.openFile load path s) (e.openFile other path t) := by
  simp only [Engine.openFile]
  cases hcontent : ApplyResult.content? e.flush.files path with
  | some content => exact .of_rel hst _
  | none =>
    obtain ⟨known, s', t', hs, ht, hrel⟩ := (h hst).exists_eq
    rw [hs, ht]
    exact .of_rel hrel _

/-- The engine does the same with tokens, if the loaders agree on the files that these open. -/
theorem run_agrees_on {tokens : List Token}
    (h : ∀ line path, ⟨line, .newHeader (some path)⟩ ∈ tokens → ∀ {s t}, R s t →
      Agrees R (load s path) (other t path))
    (rule : CursorRule) (strict : Bool) (e : Engine) {s : σ} {t : τ} (hst : R s t) :
    Agrees R (Engine.run rule strict load tokens e s) (Engine.run rule strict other tokens e t) := by
  induction tokens generalizing e s t with
  | nil => exact .of_rel hst _
  | cons token tokens ih =>
    obtain ⟨line, kind⟩ := token
    replace ih := ih fun line path hmem => h line path (List.mem_cons_of_mem _ hmem)
    -- only a header that opens a file asks the loader
    by_cases hkind : ∃ path, kind = .newHeader (some path)
    · obtain ⟨path, rfl⟩ := hkind
      have hload : ∀ {s t}, R s t → Agrees R (load s path) (other t path) :=
        h line path (List.mem_cons_self ..)
      obtain ⟨e', s', t', hs, ht, hrel⟩ := (openFile_agrees hload e hst).exists_eq
      rw [run, run, hs, ht]
      exact ih e' hrel
    · have hother : ∀ path, kind ≠ .newHeader (some path) := fun path heq => hkind ⟨path, heq⟩
      rw [run_cons_of_ne hother, run_cons_of_ne hother]
      cases e.step rule strict ⟨line, kind⟩ with
      | error err => exact .of_rel hst _
      | ok e' => exact ih e' hst

/-- The engine does the same with the tokens. -/
theorem run_agrees (h : ∀ path {s t}, R s t → Agrees R (load s path) (other t path))
    (rule : CursorRule) (strict : Bool) (tokens : List Token) (e : Engine) {s : σ} {t : τ}
    (hst : R s t) :
    Agrees R (Engine.run rule strict load tokens e s) (Engine.run rule strict other tokens e t) :=
  run_agrees_on (fun _ path _ => h path) rule strict e hst

end Engine

/-! ## Whole patches -/

/-- A path of the new side of a patch. -/
def Opens (patch path : Text) : Prop :=
  ∃ tokens line, tokenize patch = .ok tokens ∧ ⟨line, .newHeader (some path)⟩ ∈ tokens

/-- A patch has one result with loaders that answer alike about the paths of its new side, and
their states stay related. -/
theorem apply_agrees_on {patch : Text}
    (h : ∀ path, Opens patch path → ∀ {s t}, R s t → Agrees R (load s path) (other t path))
    (strict : Bool) {s : σ} {t : τ} (hst : R s t) :
    Agrees R (apply strict load patch s) (apply strict other patch t) := by
  rw [apply, apply, applyWith, applyWith]
  cases htokens : tokenize patch with
  | error err => exact .of_rel hst _
  | ok tokens =>
    have hload : ∀ line path, ⟨line, .newHeader (some path)⟩ ∈ tokens → ∀ {s t}, R s t →
        Agrees R (load s path) (other t path) :=
      fun line path hmem => h path ⟨tokens, line, htokens, hmem⟩
    obtain ⟨result, s', t', hs, ht, hrel⟩ :=
      (Engine.run_agrees_on hload .word strict {} hst).exists_eq
    simp only [hs, ht]
    cases result with
    | error err => exact .of_rel hrel _
    | ok e => exact .of_rel hrel _

/-- A patch has one result with loaders that answer alike, and their states stay related. -/
theorem apply_agrees (h : ∀ path {s t}, R s t → Agrees R (load s path) (other t path))
    (strict : Bool) (patch : Text) {s : σ} {t : τ} (hst : R s t) :
    Agrees R (apply strict load patch s) (apply strict other patch t) :=
  apply_agrees_on (fun path _ => h path) strict hst

end Patch

end Mend
