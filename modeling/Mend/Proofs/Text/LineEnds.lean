import Mend.Proofs.Text.Lines

/-!
# Texts that lose line ends

Reading a text line by line loses line ends: the carriage return of a line, and what ends the last
line. What is left is the text without some of its line ends (`Text.Relined`, `Text.relined_lines`),
so the other characters of a text are those of its lines (`Text.mem_iff_mem_lines`).

What is said of such texts holds under every relation that changes line ends only and goes over the
parts of a text (`Text.ChangesLineEnds`).
-/

namespace Mend

namespace Text

/-- The second text is the first one without some of the line ends that stand before a line feed or at
the end. -/
inductive Relined : Text → Text → Prop
  | nil : Relined [] []
  | keep {t u : Text} (c : Char) : Relined t u → Relined (c :: t) (c :: u)
  | drop {c : Char} {t u : Text} : c = cr ∨ c = lf → (∀ d ∈ u.head?, d = lf) → Relined t u →
      Relined (c :: t) u

theorem Relined.refl (t : Text) : Relined t t := by
  induction t with
  | nil => exact .nil
  | cons c t ih => exact .keep c ih

theorem Relined.sublist {t u : Text} (h : Relined t u) : u.Sublist t := by
  induction h with
  | nil => exact .slnil
  | keep c _ ih => exact ih.cons_cons c
  | drop _ _ _ ih => exact ih.cons _

/-- What holds of all characters still holds. -/
theorem Relined.forall_mem {P : Char → Prop} {t u : Text} (h : Relined t u) (ht : ∀ c ∈ t, P c) :
    ∀ c ∈ u, P c :=
  fun c hc => ht c (h.sublist.subset hc)

/-- A character that ends no line is kept. -/
theorem Relined.exists_cons {c : Char} (hcr : c ≠ cr) (hlf : c ≠ lf) {t u : Text}
    (h : Relined (c :: t) u) : ∃ u', u = c :: u' ∧ Relined t u' := by
  cases h with
  | keep _ h => exact ⟨_, rfl, h⟩
  | drop hc => exact absurd hc (not_or.2 ⟨hcr, hlf⟩)

/-- A part of a text is relined by itself. -/
theorem Relined.exists_append {a b u : Text} (h : Relined (a ++ b) u) :
    ∃ a' b', u = a' ++ b' ∧ Relined a a' ∧ Relined b b' := by
  induction a generalizing u with
  | nil => exact ⟨[], u, rfl, .nil, h⟩
  | cons c a ih =>
    cases h with
    | keep _ h =>
      obtain ⟨a', b', rfl, ha, hb⟩ := ih h
      exact ⟨c :: a', b', rfl, .keep c ha, hb⟩
    | drop hc hhead h =>
      obtain ⟨a', b', rfl, ha, hb⟩ := ih h
      refine ⟨a', b', rfl, .drop hc (fun d hd => hhead d ?_) ha, hb⟩
      rw [List.head?_append, Option.mem_def.1 hd]
      rfl

/-- Relined parts make a relined text, when line ends at the border have a line feed behind them. -/
theorem Relined.append {a a' b b' : Text} (ha : Relined a a') (hb : Relined b b')
    (hhead : a = a' ∨ ∀ d ∈ b'.head?, d = lf) : Relined (a ++ b) (a' ++ b') := by
  induction ha with
  | nil => exact hb
  | keep c _ ih =>
    refine .keep c (ih (hhead.imp_left fun h => (List.cons.inj h).2))
  | @drop c t u hc hu ht ih =>
    have hborder : ∀ d ∈ b'.head?, d = lf := by
      refine hhead.resolve_left fun h => ?_
      have hlength := ht.sublist.length_le
      rw [← h, List.length_cons] at hlength
      omega
    refine .drop hc (fun d hd => ?_) (ih (.inr hborder))
    cases u with
    | nil => exact hborder d hd
    | cons e u => exact hu d hd

/-! ## Relations between line ends -/

/-- A relation under which texts differ in their line ends only: it splits with a text, keeps a
character that ends no line, and has nothing but line ends for one that does. -/
structure ChangesLineEnds (R : Text → Text → Prop) : Prop where
  nil : ∀ {u : Text}, R [] u → u = []
  append : ∀ {a b u : Text}, R (a ++ b) u → ∃ a' b', u = a' ++ b' ∧ R a a' ∧ R b b'
  keep : ∀ {c : Char} {u : Text}, c ≠ cr → c ≠ lf → R [c] u → u = [c]
  lineEnd : ∀ {c : Char} {u : Text}, c = cr ∨ c = lf → R [c] u → ∀ d ∈ u, d = cr ∨ d = lf

theorem changesLineEnds_relined : ChangesLineEnds Relined where
  nil h := List.sublist_nil.1 h.sublist
  append h := h.exists_append
  keep hcr hlf h := by
    obtain ⟨u, rfl, hu⟩ := h.exists_cons hcr hlf
    rw [List.sublist_nil.1 hu.sublist]
  lineEnd hc h := h.forall_mem (List.forall_mem_singleton.2 hc)

namespace ChangesLineEnds

variable {R : Text → Text → Prop} (hR : ChangesLineEnds R) {t u : Text}

include hR

/-- A character that ends no line is kept in front of the others. -/
theorem cons {c : Char} (hcr : c ≠ cr) (hlf : c ≠ lf) (h : R (c :: t) u) :
    ∃ u', u = c :: u' ∧ R t u' := by
  obtain ⟨first, u', rfl, hfirst, hu⟩ := hR.append (a := [c]) h
  rw [hR.keep hcr hlf hfirst]
  exact ⟨u', rfl, hu⟩

/-- A text without line ends stays as it is. -/
theorem eq_self (hcr : cr ∉ t) (hlf : lf ∉ t) (h : R t u) : u = t := by
  induction t generalizing u with
  | nil => exact hR.nil h
  | cons c t ih =>
    rw [List.mem_cons, not_or] at hcr hlf
    obtain ⟨u, rfl, hu⟩ := hR.cons (Ne.symm hcr.1) (Ne.symm hlf.1) h
    rw [ih hcr.2 hlf.2 hu]

/-- Characters around a text that end no line are kept. -/
theorem enclosed {a b : Char} (h : R (a :: (t ++ [b])) u) (ha : a ≠ cr ∧ a ≠ lf)
    (hb : b ≠ cr ∧ b ≠ lf) : ∃ t', u = a :: (t' ++ [b]) ∧ R t t' := by
  obtain ⟨u, rfl, hu⟩ := hR.cons ha.1 ha.2 h
  obtain ⟨t', back, rfl, ht, hback⟩ := hR.append hu
  rw [hR.keep hb.1 hb.2 hback]
  exact ⟨t', rfl, ht⟩

/-- What ends no line still stands somewhere in the text. -/
theorem isInfix {m : Text} (hcr : cr ∉ m) (hlf : lf ∉ m) (hm : m <:+: t) (h : R t u) : m <:+: u := by
  obtain ⟨a, b, rfl⟩ := hm
  obtain ⟨u, b', rfl, hu, -⟩ := hR.append h
  obtain ⟨a', m', rfl, -, hm'⟩ := hR.append hu
  rw [hR.eq_self hcr hlf hm']
  exact ⟨a', b', rfl⟩

/-- What holds of all characters and of line ends still holds. -/
theorem forall_mem {P : Char → Prop} (hcr : P cr) (hlf : P lf) (ht : ∀ c ∈ t, P c) (h : R t u) :
    ∀ c ∈ u, P c := by
  induction t generalizing u with
  | nil =>
    rw [hR.nil h]
    exact ht
  | cons c t ih =>
    rw [List.forall_mem_cons] at ht
    obtain ⟨first, u, rfl, hfirst, hu⟩ := hR.append (a := [c]) h
    refine List.forall_mem_append.2 ⟨fun d hd => ?_, ih ht.2 hu⟩
    by_cases hc : c = cr ∨ c = lf
    · rcases hR.lineEnd hc hfirst d hd with rfl | rfl
      · exact hcr
      · exact hlf
    · rw [not_or] at hc
      rw [hR.keep hc.1 hc.2 hfirst, List.mem_singleton] at hd
      rw [hd]
      exact ht.1

end ChangesLineEnds

/-! ## Reading by lines -/

/-- A line may lose its carriage return. -/
theorem relined_dropCr (l : Text) : Relined l (dropCr l) := by
  by_cases hl : l.getLast? = some cr
  · obtain ⟨front, rfl⟩ := List.getLast?_eq_some_iff.1 hl
    rw [dropCr, dropSuffix_append]
    have hend : Relined [cr] [] := .drop (.inl rfl) (by simp) .nil
    simpa using (Relined.refl front).append hend (.inl rfl)
  · rw [dropCr_eq_self hl]
    exact .refl l

/-- Lines may lose their carriage returns. -/
theorem relined_map_dropCr (ls : List Text) :
    Relined (joinWith [lf] ls) (joinWith [lf] (ls.map dropCr)) := by
  induction ls with
  | nil => exact .nil
  | cons l ls ih =>
    cases ls with
    | nil => simpa [joinWith] using relined_dropCr l
    | cons m ls =>
      rw [List.map_cons, List.map_cons, joinWith_cons_cons, joinWith_cons_cons, List.append_assoc,
        List.append_assoc]
      exact (relined_dropCr l).append (.keep lf ih) (.inr fun d hd => (Option.some.inj hd).symm)

/-- Pieces lose line ends when they become lines. -/
theorem relined_linesOfPieces (ps : List Text) :
    Relined (joinWith [lf] ps) (joinWith [lf] (linesOfPieces ps)) := by
  induction ps with
  | nil => exact .nil
  | cons p ps ih =>
    cases ps with
    | nil =>
      rw [linesOfPieces]
      split
      · rename_i hempty
        rw [List.isEmpty_iff.1 hempty]
        exact .nil
      · exact .refl _
    | cons q ps =>
      rw [linesOfPieces, joinWith_cons_cons, List.append_assoc]
      · cases hlines : linesOfPieces (q :: ps) with
        | nil =>
          -- nothing is left behind the line feed, so it goes too
          rw [hlines] at ih
          have hend : Relined ([lf] ++ joinWith [lf] (q :: ps)) [] := .drop (.inr rfl) (by simp) ih
          simpa [joinWith] using (relined_dropCr p).append hend (.inr (by simp))
        | cons l ls =>
          rw [hlines] at ih
          rw [joinWith_cons_cons, List.append_assoc]
          exact (relined_dropCr p).append (.keep lf ih) (.inr fun d hd => (Option.some.inj hd).symm)
      · simp

/-- The lines of a text, joined, are the text without some line ends. -/
theorem relined_lines (t : Text) : Relined t (joinWith [lf] t.lines) := by
  have hpieces := relined_linesOfPieces (t.splitOn lf)
  rwa [joinWith_splitOn] at hpieces

/-- What is lost are line ends. -/
theorem Relined.mem {t u : Text} (h : Relined t u) {c : Char} (hc : c ∈ t) :
    c ∈ u ∨ c = cr ∨ c = lf := by
  induction h with
  | nil => exact .inl hc
  | keep d _ ih =>
    rcases List.mem_cons.1 hc with rfl | hc
    · exact .inl (List.mem_cons_self ..)
    · exact (ih hc).imp_left (List.mem_cons_of_mem d)
  | drop hd _ _ ih =>
    rcases List.mem_cons.1 hc with rfl | hc
    · exact .inr hd
    · exact ih hc

theorem mem_joinWith_iff {c : Char} (hc : c ≠ lf) {ls : List Text} :
    c ∈ joinWith [lf] ls ↔ ∃ l ∈ ls, c ∈ l := by
  induction ls with
  | nil => simp [joinWith]
  | cons l ls ih =>
    cases ls with
    | nil => simp [joinWith]
    | cons m ls =>
      rw [joinWith_cons_cons, List.mem_append, List.mem_append, ih]
      simp [hc]

/-- The characters of a piece between line feeds are characters of the text. -/
theorem mem_of_mem_splitOn {t p : Text} (hp : p ∈ t.splitOn lf) {c : Char} (hc : c ∈ p) : c ∈ t := by
  have hne : c ≠ lf := ne_of_mem_of_not_mem hc (sep_notMem_of_mem_splitOn hp)
  rw [← joinWith_splitOn lf t, mem_joinWith_iff hne]
  exact ⟨p, hp, hc⟩

/-- The characters of a text that end no line are those of its lines. -/
theorem mem_iff_mem_lines {c : Char} (hcr : c ≠ cr) (hlf : c ≠ lf) {t : Text} :
    c ∈ t ↔ ∃ l ∈ t.lines, c ∈ l := by
  rw [← mem_joinWith_iff hlf]
  exact ⟨fun hc => ((relined_lines t).mem hc).resolve_right (not_or.2 ⟨hcr, hlf⟩),
    fun hc => (relined_lines t).sublist.subset hc⟩

end Text

end Mend
