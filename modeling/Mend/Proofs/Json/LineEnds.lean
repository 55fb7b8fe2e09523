import Mend.Proofs.Json.Grammar
import Mend.Proofs.Text.LineEnds

/-!
# Line ends in JSON

Line ends stand between the tokens of JSON only, where the grammar minds no white space. So a text
that differs in its line ends only (`Text.ChangesLineEnds`) spells the same value
(`Json.Spells.changed`); a text that is read by its lines is such a text (`Json.Spells.relined`).
-/

namespace Mend

namespace Json

/-! ## Characters of tokens -/

/-- A hexadecimal digit is no control character. -/
theorem le_toNat_of_hexDigit? {c : Char} {n : Nat} (h : hexDigit? c = some n) : 0x20 ≤ c.toNat := by
  have hrange : ∀ {a b : Char}, 0x20 ≤ a.toNat → (decide (a ≤ c) && decide (c ≤ b)) = true →
      0x20 ≤ c.toNat := by
    intro a b ha hc
    simp only [Bool.and_eq_true, decide_eq_true_eq] at hc
    have hle : a.toNat ≤ c.toNat := hc.1
    omega
  unfold hexDigit? at h
  split at h
  · rename_i hdigit
    exact hrange (by decide) hdigit
  split at h
  · rename_i hlower
    exact hrange (by decide) hlower
  split at h
  · rename_i hupper
    exact hrange (by decide) hupper
  · cases h

/-- Four digits are no control characters. -/
theorem le_toNat_of_hex4? {a b c d : Char} {n : Nat} (h : hex4? a b c d = some n) :
    ∀ x ∈ [a, b, c, d], 0x20 ≤ x.toNat := by
  obtain ⟨_, ha, h⟩ := Option.bind_eq_some_iff.1 h
  obtain ⟨_, hb, h⟩ := Option.bind_eq_some_iff.1 h
  obtain ⟨_, hc, h⟩ := Option.bind_eq_some_iff.1 h
  obtain ⟨_, hd, -⟩ := Option.bind_eq_some_iff.1 h
  simp only [List.forall_mem_cons]
  exact ⟨le_toNat_of_hexDigit? ha, le_toNat_of_hexDigit? hb, le_toNat_of_hexDigit? hc,
    le_toNat_of_hexDigit? hd, List.forall_mem_nil _⟩

theorem le_toNat_of_escape? {c d : Char} (h : escape? c = some d) : 0x20 ≤ c.toNat := by
  unfold escape? at h
  split at h
  case h_9 => cases h
  all_goals decide

/-- Between its quotes a text has no control characters. -/
theorem SpellsText.le_toNat {w s : Text} (h : SpellsText w s) : ∀ c ∈ w, 0x20 ≤ c.toNat := by
  have hslash : 0x20 ≤ '\\'.toNat := by decide
  have hu : 0x20 ≤ 'u'.toNat := by decide
  induction h with
  | close => exact Text.forall_mem_of_all (by decide)
  | plain _ _ hlow _ ih => exact List.forall_mem_cons.2 ⟨hlow, ih⟩
  | letter hd _ ih =>
    simp only [List.forall_mem_cons]
    exact ⟨hslash, le_toNat_of_escape? hd, ih⟩
  | unicode hn _ _ _ ih =>
    have hdigits := le_toNat_of_hex4? hn
    simp only [List.forall_mem_cons] at hdigits ⊢
    exact ⟨hslash, hu, hdigits.1, hdigits.2.1, hdigits.2.2.1, hdigits.2.2.2.1, ih⟩
  | pair hn _ hm _ _ ih =>
    have hfirst := le_toNat_of_hex4? hn
    have hsecond := le_toNat_of_hex4? hm
    simp only [List.forall_mem_cons] at hfirst hsecond ⊢
    exact ⟨hslash, hu, hfirst.1, hfirst.2.1, hfirst.2.2.1, hfirst.2.2.2.1, hslash, hu, hsecond.1,
      hsecond.2.1, hsecond.2.2.1, hsecond.2.2.2.1, ih⟩

theorem le_toNat_of_isNumeralChar {c : Char} (hc : JsonNumber.isNumeralChar c = true) :
    0x20 ≤ c.toNat := by
  simp only [JsonNumber.isNumeralChar, Bool.or_eq_true, beq_iff_eq, or_assoc] at hc
  rcases hc with hdigit | rfl | rfl | rfl | rfl | rfl
  · have hlow : 48 ≤ c.toNat := of_decide_eq_true (Bool.and_eq_true_iff.1 hdigit).1
    omega
  all_goals decide

/-! ## Spelling with other line ends -/

section Changed

variable {R : Text → Text → Prop} (hR : Text.ChangesLineEnds R)

include hR

theorem isGap_changed {gap gap' : Text} (hgap : IsGap gap) (h : R gap gap') : IsGap gap' :=
  hR.forall_mem (by decide) (by decide) hgap h

/-- Texts without control characters keep all they have. -/
theorem eq_of_changed {w w' : Text} (hlow : ∀ c ∈ w, 0x20 ≤ c.toNat) (h : R w w') : w' = w := by
  refine hR.eq_self (fun hcr => ?_) (fun hlf => ?_) h
  · exact absurd (hlow _ hcr) (by decide)
  · exact absurd (hlow _ hlf) (by decide)

theorem SpellsName.changed {k k' name : Text} (h : SpellsName k name) (hr : R k k') :
    SpellsName k' name := by
  obtain ⟨hgap, hs, hback⟩ := h
  obtain ⟨gap, rest, rfl, hfront, hrest⟩ := hR.append hr
  obtain ⟨u, rfl, hu⟩ := hR.cons (by decide) (by decide) hrest
  obtain ⟨w, back, rfl, hw, hb⟩ := hR.append hu
  rw [eq_of_changed hR hs.le_toNat hw]
  exact .mk (isGap_changed hR hgap hfront) hs (isGap_changed hR hback hb)

mutual

/-- A value is still spelled when the line ends change. -/
theorem Spells.changed : ∀ {depth : Nat} {w : Text} {v : Json}, Spells depth w v →
    ∀ {w' : Text}, R w w' → Spells depth w' v
  | _, _, _, .null, w', hr => by
    rw [eq_of_changed hR (Text.forall_mem_of_all (by decide)) hr]
    exact .null
  | _, _, _, .yes, w', hr => by
    rw [eq_of_changed hR (Text.forall_mem_of_all (by decide)) hr]
    exact .yes
  | _, _, _, .no, w', hr => by
    rw [eq_of_changed hR (Text.forall_mem_of_all (by decide)) hr]
    exact .no
  | _, _, _, .number hn, w', hr => by
    obtain ⟨x, hx, hchars⟩ := JsonNumber.numeral_of_read? hn
    rw [List.append_nil] at hx
    subst hx
    rw [eq_of_changed hR (fun c hc => le_toNat_of_isNumeralChar (hchars c hc)) hr]
    exact .number hn
  | _, _, _, .text hs, w', hr => by
    obtain ⟨u, rfl, hu⟩ := hR.cons (by decide) (by decide) hr
    rw [eq_of_changed hR hs.le_toNat hu]
    exact .text hs
  | _, _, _, .emptyArray hgap, w', hr => by
    obtain ⟨u, rfl, hu⟩ := hR.enclosed hr (by decide) (by decide)
    exact .emptyArray (isGap_changed hR hgap hu)
  | _, _, _, .array hitems, w', hr => by
    obtain ⟨u, rfl, hu⟩ := hR.enclosed hr (by decide) (by decide)
    exact .array (hitems.changed hu)
  | _, _, _, .emptyObject hgap, w', hr => by
    obtain ⟨u, rfl, hu⟩ := hR.enclosed hr (by decide) (by decide)
    exact .emptyObject (isGap_changed hR hgap hu)
  | _, _, _, .object hmembers, w', hr => by
    obtain ⟨u, rfl, hu⟩ := hR.enclosed hr (by decide) (by decide)
    exact .object (hmembers.changed hu)

theorem SpellsPadded.changed : ∀ {depth : Nat} {w : Text} {v : Json}, SpellsPadded depth w v →
    ∀ {w' : Text}, R w w' → SpellsPadded depth w' v
  | _, _, _, .mk hgap hv hback, w', hr => by
    obtain ⟨gap, u, rfl, hfront, hu⟩ := hR.append hr
    obtain ⟨w, back, rfl, hw, hb⟩ := hR.append hu
    exact .mk (isGap_changed hR hgap hfront) (hv.changed hw) (isGap_changed hR hback hb)

theorem SpellsItems.changed : ∀ {depth : Nat} {w : Text} {vs : List Json}, SpellsItems depth w vs →
    ∀ {w' : Text}, R w w' → SpellsItems depth w' vs
  | _, _, _, .last hv, w', hr => .last (hv.changed hr)
  | _, _, _, .more hv hitems, w', hr => by
    obtain ⟨first, more, rfl, hfirst, hmore⟩ := hR.append hr
    obtain ⟨u, rfl, hu⟩ := hR.cons (by decide) (by decide) hmore
    exact .more (hv.changed hfirst) (hitems.changed hu)

theorem SpellsMembers.changed : ∀ {depth : Nat} {w : Text} {ms : List (Text × Json)},
    SpellsMembers depth w ms → ∀ {w' : Text}, R w w' → SpellsMembers depth w' ms
  | _, _, _, .last hk hv, w', hr => by
    obtain ⟨name, more, rfl, hname, hmore⟩ := hR.append hr
    obtain ⟨u, rfl, hu⟩ := hR.cons (by decide) (by decide) hmore
    exact .last (hk.changed hR hname) (hv.changed hu)
  | _, _, _, .more hk hv hmembers, w', hr => by
    obtain ⟨name, more, rfl, hname, hmore⟩ := hR.append hr
    obtain ⟨u, rfl, hu⟩ := hR.cons (by decide) (by decide) hmore
    obtain ⟨first, rest, rfl, hfirst, hrest⟩ := hR.append hu
    obtain ⟨last, rfl, hlast⟩ := hR.cons (by decide) (by decide) hrest
    exact .more (hk.changed hR hname) (hv.changed hfirst) (hmembers.changed hlast)

end

end Changed

/-- A value is still spelled when line ends are lost. -/
theorem Spells.relined {depth : Nat} {w w' : Text} {v : Json} (h : Spells depth w v)
    (hr : Text.Relined w w') : Spells depth w' v :=
  h.changed Text.changesLineEnds_relined hr

end Json

end Mend
