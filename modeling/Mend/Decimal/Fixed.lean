import Mend.Decimal.Shortest
import Mend.Text.Basic

/-!
# Decimals with fixed places

A number with a fixed count of digits after the point, rounded from its exact binary value; a half
goes to the even neighbour. The law is that of `roundDiv`: the result is within half a unit of the
quotient.
-/

namespace Mend

/-- A quotient rounded to the nearest number, a half to the even one. -/
def roundDiv (num den : Nat) : Nat :=
  let q := num / den
  let r := 2 * (num % den)
  if r > den || (r = den && q % 2 = 1) then q + 1 else q

/-- A number of hundredths, … with `places` digits after the point. -/
def fixedText (places n : Nat) : Text :=
  let whole := Text.ofNat (n / 10 ^ places)
  let part := Text.ofNat (n % 10 ^ places)
  if places = 0 then whole
  else whole ++ ['.'] ++ List.replicate (places - part.length) '0' ++ part

/-- A finite number with `places` digits after the point. A negative number keeps its sign also
when it rounds to zero. -/
def Binary64.fixed (places : Nat) (b : Binary64) : Text :=
  let (num, den) := Decimal.scale 2 b.exponent
  let n := roundDiv (b.mantissa * num * 10 ^ places) den
  (if b.negative then ['-'] else []) ++ fixedText places n

/-- The rounded quotient is within half a unit of the exact one. -/
theorem roundDiv_within (num den : Nat) (h : 0 < den) :
    2 * num ≤ 2 * (den * roundDiv num den) + den ∧
      2 * (den * roundDiv num den) ≤ 2 * num + den := by
  have hd := Nat.div_add_mod num den
  have hm := Nat.mod_lt num h
  unfold roundDiv
  simp only []
  split
  · rename_i hc
    have hr : den ≤ 2 * (num % den) := by
      simp only [gt_iff_lt, Bool.or_eq_true, decide_eq_true_eq, Bool.and_eq_true] at hc
      omega
    rw [Nat.mul_add, Nat.mul_one]
    omega
  · rename_i hc
    have hr : 2 * (num % den) ≤ den := by
      simp only [gt_iff_lt, Bool.or_eq_true, decide_eq_true_eq, Bool.and_eq_true] at hc
      omega
    omega

end Mend
