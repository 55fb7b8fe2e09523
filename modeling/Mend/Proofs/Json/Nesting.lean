import Mathlib.Data.List.TakeWhile
import Mend.Proofs.Json.Brackets

/-!
# The grammar of brackets

What the scanner of brackets finds, said without the scanner. The brackets of a text are balanced when
they are nested and fit by kind; what stands between quotes is no bracket (`Nesting.Balanced`). The
first bracketed value of a text that starts with an opening bracket is the shortest beginning that is
balanced and ends with a bracket that closes the first one (`Nesting.FirstValue`).

The scanner finds this value if there is one (`Text.balanced?_eq_some_iff`), and it finds nothing for
one of four reasons (`Nesting.Fails`, `Text.balanced?_eq_none_iff`).

That carries over from the scanner's states to the texts that it has gone over: its stack holds the
brackets that such a text leaves open (`Nesting.Leaves`, `Nesting.Reached`).
-/

namespace Mend

namespace Nesting

/-! ## The grammar -/

/-- A bracket that closes a value. -/
def isCloser (c : Char) : Bool := c == ']' || c == '\x7d'

/-- What stands between two quotes: a quote in it stands behind a backslash. -/
inductive Inner : Text → Prop
  | nil : Inner []
  | plain {c : Char} {q : Text} : c ≠ '"' → c ≠ '\\' → Inner q → Inner (c :: q)
  | escape {c : Char} {q : Text} : Inner q → Inner ('\\' :: c :: q)

/-- The brackets of the text are nested and fit by kind, but for those between quotes. -/
inductive Balanced : Text → Prop
  | nil : Balanced []
  | plain {c : Char} {t : Text} : c ≠ '"' → isOpener c = false → isCloser c = false → Balanced t →
      Balanced (c :: t)
  | quoted {q t : Text} : Inner q → Balanced t → Balanced ('"' :: (q ++ '"' :: t))
  | brackets {c : Char} {t u : Text} : isOpener c = true → Balanced t → Balanced u →
      Balanced (c :: (t ++ closerOf c :: u))

/-- The text is balanced but for the brackets in `stack`, the innermost first, which it leaves open.
The outermost of them starts the text. -/
inductive Leaves : Text → Text → Prop
  | first {c : Char} {t : Text} : isOpener c = true → Balanced t → Leaves [c] (c :: t)
  | inner {c : Char} {stack t u : Text} : Leaves stack t → isOpener c = true → Balanced u →
      Leaves (c :: stack) (t ++ c :: u)

/-- A balanced text whose last character closes a bracket of the kind of the one at its start. -/
structure IsValue (w : Text) : Prop where
  balanced : Balanced w
  ends : ∃ c, w.head? = some c ∧ isOpener c = true ∧ w.getLast? = some (closerOf c)

/-- The shortest beginning of a text that is a bracketed value. -/
structure FirstValue (w t : Text) : Prop where
  starts : w <+: t
  isValue : IsValue w
  shortest : ∀ v, v <+: w → v ≠ w → ¬ IsValue v

/-- Why no beginning of a text is a bracketed value, although the text starts with a bracket. -/
inductive Fails : Text → Prop
  /-- A bracket closes another kind than the innermost open one is of. -/
  | mismatch {c d : Char} {stack t : Text} (rest : Text) : Leaves (c :: stack) t →
      isCloser d = true → d ≠ closerOf c → Fails (t ++ d :: rest)
  /-- The text ends inside of the value. -/
  | unclosed {stack t : Text} : Leaves stack t → Fails t
  /-- The text ends between quotes. -/
  | unquoted {stack t q : Text} : Leaves stack t → Inner q → Fails (t ++ '"' :: q)
  /-- The text ends between quotes and behind a backslash. -/
  | escaped {stack t q : Text} : Leaves stack t → Inner q → Fails (t ++ '"' :: (q ++ ['\\']))

variable {t u w stack q : Text} {c d : Char} {s s' : Nesting}

/-! ## Texts behind one another -/

theorem Inner.append {r : Text} (h : Inner q) (h' : Inner r) : Inner (q ++ r) := by
  induction h with
  | nil => exact h'
  | plain hquote hslash _ ih => exact .plain hquote hslash ih
  | escape _ ih => exact .escape ih

theorem inner_of_forall (h : ∀ c ∈ q, c ≠ '"' ∧ c ≠ '\\') : Inner q := by
  induction q with
  | nil => exact .nil
  | cons c q ih =>
    rw [List.forall_mem_cons] at h
    exact .plain h.1.1 h.1.2 (ih h.2)

theorem Balanced.append (h : Balanced t) (h' : Balanced u) : Balanced (t ++ u) := by
  induction h with
  | nil => exact h'
  | plain hquote hopen hclose _ ih => exact .plain hquote hopen hclose ih
  | quoted hq _ ih =>
    rw [List.cons_append, List.append_assoc, List.cons_append]
    exact .quoted hq ih
  | brackets hopen ht _ _ ih =>
    rw [List.cons_append, List.append_assoc, List.cons_append]
    exact .brackets hopen ht ih

/-- A balanced text behind another one closes nothing of it. -/
theorem Leaves.append (h : Leaves stack t) (hu : Balanced u) : Leaves stack (t ++ u) := by
  cases h with
  | first hopen ht => exact .first hopen (ht.append hu)
  | inner ht hopen hinner =>
    rw [List.append_assoc, List.cons_append]
    exact .inner ht hopen (hinner.append hu)

theorem Leaves.stack_ne_nil (h : Leaves stack t) : stack ≠ [] := by
  cases h with
  | first => exact List.cons_ne_nil _ _
  | inner => exact List.cons_ne_nil _ _

/-- The innermost open bracket is closed. What it encloses is balanced then, and so the brackets
outside of it are open and no others, or the whole text is enclosed. -/
theorem Leaves.close (h : Leaves (c :: stack) t) :
    (stack = [] ∧ ∃ b, Balanced b ∧ t = c :: b) ∨ Leaves stack (t ++ [closerOf c]) := by
  cases h with
  | first hopen hb => exact .inl ⟨rfl, _, hb, rfl⟩
  | inner ht hopen hu =>
    right
    rw [List.append_assoc, List.cons_append]
    exact ht.append (.brackets hopen hu .nil)

/-! ## The scanner over a text of the grammar -/

/-- The scanner behind a backslash inside a text. -/
def escaping (stack : Text) : Nesting := ⟨stack, true, true⟩

@[simp]
theorem isClosed_inside (stack : Text) : (inside stack).isClosed = stack.isEmpty := by
  simp [isClosed, inside]

@[simp]
theorem isClosed_quoting (stack : Text) : (quoting stack).isClosed = false := by
  simp [isClosed, quoting]

@[simp]
theorem isClosed_escaping (stack : Text) : (escaping stack).isClosed = false := by
  simp [isClosed, escaping]

theorem passes_openQuote (stack : Text) : Passes (inside stack) ['"'] (quoting stack) :=
  Passes.cons rfl (isClosed_quoting stack) (passes_nil _)

theorem passes_closeQuote (hstack : stack ≠ []) : Passes (quoting stack) ['"'] (inside stack) := by
  have hopen : (inside stack).isClosed = false := by simp [hstack]
  exact Passes.cons rfl hopen (passes_nil _)

theorem Inner.passes (h : Inner q) (stack : Text) :
    Passes (quoting stack) q (quoting stack) := by
  induction h with
  | nil => exact passes_nil _
  | plain hquote hslash _ ih =>
    exact Passes.cons (step?_quoting hquote hslash) (isClosed_quoting _) ih
  | escape _ ih => exact (passes_escape stack _).append ih

theorem Balanced.passes (h : Balanced t) (hstack : stack ≠ []) :
    Passes (inside stack) t (inside stack) := by
  induction h generalizing stack with
  | nil => exact passes_nil _
  | plain hquote hopen hclose _ ih =>
    refine (passes_token hstack ?_).append (ih hstack)
    simp only [isOpener, isCloser, Bool.or_eq_false_iff, beq_eq_false_iff_ne] at hopen hclose
    simp [hquote, hopen, hclose]
  | quoted hq _ ih =>
    have hbody := (hq.passes stack).append ((passes_closeQuote hstack).append (ih hstack))
    exact (passes_openQuote stack).append hbody
  | brackets hopen _ _ ih ih' =>
    have hpass := passes_brackets hstack hopen (ih (List.cons_ne_nil _ stack))
    have hall := hpass.append (ih' hstack)
    simpa using hall

theorem Leaves.passes (h : Leaves stack t) : Passes outside t (inside stack) := by
  induction h with
  | first hopen ht =>
    exact Passes.cons (step?_opener hopen []) rfl (ht.passes (List.cons_ne_nil _ _))
  | inner _ hopen hu ih =>
    exact ih.append (Passes.cons (step?_opener hopen _) rfl (hu.passes (List.cons_ne_nil _ _)))

/-- The scanner goes over an opening quote and what is behind it. -/
theorem Leaves.passes_quote (h : Leaves stack t) (hq : Inner q) :
    Passes outside (t ++ '"' :: q) (quoting stack) :=
  h.passes.append ((passes_openQuote stack).append (hq.passes stack))

/-- A text that the scanner goes over holds nothing for it to take. -/
theorem Passes.take?_eq_none (h : Passes s t s') : s.take? t = none := by
  have htake := h []
  rwa [List.append_nil] at htake

theorem step?_mismatch (hclose : isCloser d = true) (hne : d ≠ closerOf c) :
    (inside (c :: stack)).step? d = none := by
  obtain rfl | rfl : d = ']' ∨ d = '\x7d' := by simpa [isCloser] using hclose
  · simp [step?, inside, isOpener, Ne.symm hne]
  · simp [step?, inside, isOpener, Ne.symm hne]

theorem Fails.take?_eq_none (h : Fails t) : outside.take? t = none := by
  cases h with
  | mismatch rest hleaves hclose hne =>
    rw [hleaves.passes, take?, step?_mismatch hclose hne]
    rfl
  | unclosed hleaves => exact hleaves.passes.take?_eq_none
  | unquoted hleaves hq => exact (hleaves.passes_quote hq).take?_eq_none
  | @escaped stack t q hleaves hq =>
    have hslash : Passes (quoting stack) ['\\'] (escaping stack) :=
      Passes.cons rfl (isClosed_escaping stack) (passes_nil _)
    have hall := (hleaves.passes_quote hq).append hslash
    rw [List.append_assoc, List.cons_append] at hall
    exact hall.take?_eq_none

/-! ## Bracketed values -/

/-- A bracket with what it encloses and the bracket that closes it. -/
inductive Enclosed : Text → Prop
  | mk {c : Char} {t : Text} : isOpener c = true → Balanced t → Enclosed (c :: (t ++ [closerOf c]))

theorem Enclosed.balanced (h : Enclosed w) : Balanced w := by
  obtain ⟨hopen, ht⟩ := h
  exact .brackets hopen ht .nil

theorem Enclosed.isValue (h : Enclosed w) : IsValue w := by
  refine ⟨h.balanced, ?_⟩
  obtain ⟨hopen, -⟩ := h
  refine ⟨_, rfl, hopen, ?_⟩
  rw [← List.cons_append, List.getLast?_concat]

/-- The scanner takes what a bracket encloses, whatever stands behind it. -/
theorem Enclosed.take? (h : Enclosed w) (hw : w <+: t) : outside.take? t = some w := by
  obtain ⟨hopen, hb⟩ := h
  obtain ⟨rest, rfl⟩ := hw
  have htake := take?_brackets hopen (hb.passes (List.cons_ne_nil _ [])) rest
  simpa using htake

/-- A value starts with a bracket and what that one encloses. -/
theorem IsValue.exists_enclosed (h : IsValue w) : ∃ v, v <+: w ∧ Enclosed v := by
  obtain ⟨hbalanced, c, hhead, hopen, -⟩ := h
  cases hbalanced with
  | nil => cases hhead
  | plain _ hplain _ _ =>
    obtain rfl := Option.some.inj hhead
    cases hopen.symm.trans hplain
  | quoted _ _ =>
    obtain rfl := Option.some.inj hhead
    cases hopen
  | @brackets d b u hopen' hb _ =>
    exact ⟨d :: (b ++ [closerOf d]), ⟨u, by simp⟩, .mk hopen' hb⟩

/-- The first value of a text is what its first bracket encloses. -/
theorem firstValue_iff : FirstValue w t ↔ w <+: t ∧ Enclosed w := by
  constructor
  · intro h
    obtain ⟨v, hv, henclosed⟩ := h.isValue.exists_enclosed
    -- what the first bracket encloses is a value, and no shorter one than `w`
    by_cases heq : v = w
    · exact ⟨h.starts, heq ▸ henclosed⟩
    · exact absurd henclosed.isValue (h.shortest v hv heq)
  · rintro ⟨hw, henclosed⟩
    refine ⟨hw, henclosed.isValue, fun v hv hne hvalue => hne ?_⟩
    -- a shorter value would hold one that the scanner takes instead
    obtain ⟨v', hv', henclosed'⟩ := hvalue.exists_enclosed
    have heq : v' = w := Option.some.inj
      ((henclosed'.take? (hv'.trans hv)).symm.trans (henclosed.take? (List.prefix_refl w)))
    exact hv.eq_of_length_le (heq ▸ hv'.length_le)

/-- A text has one first value at most. -/
theorem FirstValue.eq {v : Text} (h : FirstValue v t) (h' : FirstValue w t) : v = w := by
  obtain ⟨hv, henclosed⟩ := firstValue_iff.1 h
  obtain ⟨hw, henclosed'⟩ := firstValue_iff.1 h'
  exact Option.some.inj ((henclosed.take? hv).symm.trans (henclosed'.take? hw))

/-! ## What the scanner has gone over -/

/-- The text that the scanner has gone over when it is in a state, from the first bracket on. -/
inductive Reached : Nesting → Text → Prop
  | inside {stack t : Text} : Leaves stack t → Reached (inside stack) t
  | quoting {stack t q : Text} : Leaves stack t → Inner q →
      Reached (quoting stack) (t ++ '"' :: q)
  | escaping {stack t q : Text} : Leaves stack t → Inner q →
      Reached (escaping stack) (t ++ '"' :: (q ++ ['\\']))

theorem Reached.fails (h : Reached s t) : Fails t := by
  cases h with
  | inside hleaves => exact .unclosed hleaves
  | quoting hleaves hq => exact .unquoted hleaves hq
  | escaping hleaves hq => exact .escaped hleaves hq

/-- What one more character does: the scanner stops, goes on, or has come to the end of a value. -/
inductive Advances (s : Nesting) (t : Text) (c : Char) : Prop
  | stops (step : s.step? c = none) (fails : ∀ rest, Fails (t ++ c :: rest))
  | goes {s' : Nesting} (step : s.step? c = some s') (closed : s'.isClosed = false)
      (reached : Reached s' (t ++ [c]))
  | ends {s' : Nesting} (step : s.step? c = some s') (closed : s'.isClosed = true)
      (enclosed : Enclosed (t ++ [c]))

theorem Leaves.advances (h : Leaves stack t) (c : Char) : Advances (inside stack) t c := by
  by_cases hquote : c = '"'
  · subst hquote
    exact .goes rfl (isClosed_quoting stack) (.quoting h .nil)
  by_cases hopen : isOpener c = true
  · exact .goes (step?_opener hopen stack) rfl (.inside (h.inner hopen .nil))
  by_cases hclose : isCloser c = true
  · obtain ⟨o, rest, rfl⟩ := List.exists_cons_of_ne_nil h.stack_ne_nil
    have hopener : isOpener o = true := by
      cases h with
      | first hopener => exact hopener
      | inner _ hopener => exact hopener
    by_cases hfit : c = closerOf o
    · subst hfit
      have hstep := step?_closer hopener rest
      rcases h.close with ⟨rfl, b, hb, rfl⟩ | hleaves
      · exact .ends hstep rfl (.mk hopener hb)
      · exact .goes hstep (by simp [hleaves.stack_ne_nil]) (.inside hleaves)
    · exact .stops (step?_mismatch hclose hfit) fun rest => .mismatch rest h hclose hfit
  · -- any other character leaves the scanner as it is
    rw [Bool.not_eq_true] at hopen hclose
    have hstep : (inside stack).step? c = some (inside stack) := by
      have hnot : ¬ (c = ']' ∨ c = '\x7d') := by simpa [isCloser] using hclose
      simp [step?, inside, hquote, hopen, hnot]
    refine .goes hstep (by simp [h.stack_ne_nil]) (.inside (h.append ?_))
    exact .plain hquote hopen hclose .nil

theorem Reached.advances (h : Reached s t) (c : Char) : Advances s t c := by
  cases h with
  | inside hleaves => exact hleaves.advances c
  | @quoting stack t q hleaves hq =>
    by_cases hslash : c = '\\'
    · subst hslash
      refine .goes rfl (isClosed_escaping stack) ?_
      rw [List.append_assoc, List.cons_append]
      exact .escaping hleaves hq
    by_cases hquote : c = '"'
    · subst hquote
      have hopen : (Nesting.inside stack).isClosed = false := by simp [hleaves.stack_ne_nil]
      refine .goes rfl hopen ?_
      rw [List.append_assoc, List.cons_append]
      exact .inside (hleaves.append (.quoted hq .nil))
    · refine .goes (step?_quoting hquote hslash) (isClosed_quoting stack) ?_
      rw [List.append_assoc, List.cons_append]
      exact .quoting hleaves (hq.append (.plain hquote hslash .nil))
  | @escaping stack t q hleaves hq =>
    -- the backslash protects the character, whatever it is
    refine .goes rfl (isClosed_quoting stack) ?_
    rw [List.append_assoc, List.cons_append, List.append_assoc]
    exact .quoting hleaves (hq.append (.escape .nil))

/-- The scanner takes the rest of a value, or there is none. -/
theorem Reached.take?_cases (h : Reached s w) (t : Text) :
    (∃ v, s.take? t = some v ∧ Enclosed (w ++ v)) ∨ (s.take? t = none ∧ Fails (w ++ t)) := by
  -- induction on what is left of the text; the step moves a character to what has been gone over
  induction t generalizing s w with
  | nil =>
    rw [List.append_nil]
    exact .inr ⟨rfl, h.fails⟩
  | cons c t ih =>
    rw [take?]
    cases h.advances c with
    | stops step fails =>
      rw [step]
      exact .inr ⟨rfl, fails t⟩
    | goes step closed reached =>
      simp only [step, closed, Bool.false_eq_true, if_false]
      rcases ih reached with ⟨v, hv, henclosed⟩ | ⟨hnone, hfails⟩
      · left
        refine ⟨c :: v, by rw [hv, Option.map_some], ?_⟩
        rwa [List.append_assoc] at henclosed
      · right
        refine ⟨by rw [hnone, Option.map_none], ?_⟩
        rwa [List.append_assoc] at hfails
    | ends step closed enclosed =>
      simp only [step, closed, if_true]
      exact .inl ⟨[c], rfl, enclosed⟩

end Nesting

namespace Text

open Nesting

variable {t w : Text}

/-- The text from its first opening bracket on. -/
def fromOpener (t : Text) : Text := t.dropWhile fun c => !isOpener c

theorem fromOpener_eq_nil : fromOpener t = [] ↔ ∀ c ∈ t, isOpener c = false := by
  rw [fromOpener, List.dropWhile_eq_nil_iff]
  simp

/-- A text without opening brackets holds no value, and else there is a value behind the first one or
a reason that there is none. -/
theorem balanced?_cases (t : Text) :
    (∃ w, balanced? t = some w ∧ w <+: fromOpener t ∧ Enclosed w) ∨
      (balanced? t = none ∧ ((∀ c ∈ t, isOpener c = false) ∨ Fails (fromOpener t))) := by
  have hscan : balanced? t = outside.take? (fromOpener t) := rfl
  rw [hscan]
  -- behind the first opener the scanner has gone over that one character
  cases hfrom : fromOpener t with
  | nil => exact .inr ⟨rfl, .inl (fromOpener_eq_nil.1 hfrom)⟩
  | cons c rest =>
    have hopen : isOpener c = true := by
      have hhead := List.head?_dropWhile_not (fun c => !isOpener c) t
      rw [← fromOpener, hfrom] at hhead
      simpa using hhead
    have hreached : Reached (inside [c]) [c] := .inside (.first hopen .nil)
    have hstart : outside.take? (c :: rest) = ((inside [c]).take? rest).map (c :: ·) := by
      rw [take?, show outside.step? c = some (inside [c]) from step?_opener hopen []]
      rfl
    rw [hstart]
    rcases hreached.take?_cases rest with ⟨v, hv, henclosed⟩ | ⟨hnone, hfails⟩
    · left
      exact ⟨c :: v, by rw [hv, Option.map_some],
        List.cons_prefix_cons.2 ⟨rfl, prefix_of_take? hv⟩, henclosed⟩
    · right
      exact ⟨by rw [hnone, Option.map_none], .inr hfails⟩

/-- What the scanner finds is the first value. -/
theorem balanced?_eq_some_iff : balanced? t = some w ↔ FirstValue w (fromOpener t) := by
  rw [firstValue_iff]
  constructor
  · intro h
    rcases balanced?_cases t with ⟨v, hv, hstarts, henclosed⟩ | ⟨hnone, -⟩
    · cases h.symm.trans hv
      exact ⟨hstarts, henclosed⟩
    · cases h.symm.trans hnone
  · rintro ⟨hstarts, henclosed⟩
    exact henclosed.take? hstarts

/-- The scanner finds nothing when the text opens no bracket or its first one is not closed. -/
theorem balanced?_eq_none_iff :
    balanced? t = none ↔ (∀ c ∈ t, isOpener c = false) ∨ Fails (fromOpener t) := by
  constructor
  · intro h
    rcases balanced?_cases t with ⟨v, hv, -⟩ | ⟨-, hreason⟩
    · cases h.symm.trans hv
    · exact hreason
  · rintro (hnone | hfails)
    · have hscan : balanced? t = outside.take? (fromOpener t) := rfl
      rw [hscan, fromOpener_eq_nil.2 hnone]
      rfl
    · exact hfails.take?_eq_none

end Text

end Mend
