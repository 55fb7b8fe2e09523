import Mend.Text.Basic

/-!
# The order of texts

Texts are ordered by their code points. The order is total, and only equal texts are in both orders
(`Text.le_total`, `Text.le_antisymm`), so a list of texts is put in order in one way.
-/

namespace Mend

namespace Text

theorem le_refl (t : Text) : le t t = true := by
  induction t with
  | nil => rfl
  | cons c t ih => simpa [le] using ih

theorem le_trans {a b c : Text} (hab : le a b = true) (hbc : le b c = true) : le a c = true := by
  induction a generalizing b c with
  | nil => rw [le]
  | cons x a ih =>
    cases b with
    | nil => simp [le] at hab
    | cons y b =>
      cases c with
      | nil => simp [le] at hbc
      | cons z c =>
        rw [le] at hab hbc ⊢
        split at hab
        · split at hbc
          · rw [if_pos (by omega)]
          · split at hbc
            · rw [if_pos (by simp_all)]
            · cases hbc
        · split at hab
          · subst x
            split at hbc
            · rw [if_pos ‹_›]
            · split at hbc
              · rw [if_neg ‹_›, if_pos ‹_›]
                exact ih hab hbc
              · cases hbc
          · cases hab

theorem le_antisymm {a b : Text} (hab : le a b = true) (hba : le b a = true) : a = b := by
  induction a generalizing b with
  | nil =>
    cases b with
    | nil => rfl
    | cons y b => simp [le] at hba
  | cons x a ih =>
    cases b with
    | nil => simp [le] at hab
    | cons y b =>
      rw [le] at hab hba
      by_cases heq : x = y
      · subst heq
        simp only [Nat.lt_irrefl, if_false, if_true] at hab hba
        rw [ih hab hba]
      · rw [if_neg heq] at hab
        rw [if_neg (Ne.symm heq)] at hba
        have hlt : x.toNat < y.toNat := by simpa using hab
        have hgt : y.toNat < x.toNat := by simpa using hba
        omega

theorem le_total (a b : Text) : (le a b || le b a) = true := by
  induction a generalizing b with
  | nil => rw [le, Bool.true_or]
  | cons x a ih =>
    cases b with
    | nil => rw [le, le, Bool.false_or]
    | cons y b =>
      rw [le, le]
      by_cases heq : x = y
      · subst heq
        simpa using ih b
      · -- different characters are ordered by their code points
        have hne : x.toNat ≠ y.toNat := fun h => heq (Char.toNat_inj.1 h)
        rcases Nat.lt_or_gt_of_ne hne with hlt | hgt
        · rw [if_pos hlt, Bool.true_or]
        · rw [if_pos hgt, Bool.or_true]

end Text

end Mend
