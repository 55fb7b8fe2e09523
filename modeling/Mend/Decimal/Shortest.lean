import Mend.Instances

/-!
# Shortest decimals

The fewest decimal digits that read back as a given binary floating-point number, and among the
candidates with that many digits the one nearest to it. A finite number is taken apart into
`m · 2 ^ q`; the reals that round to it form an interval (`RoundingInterval`), and for one, two, …
seventeen digits the two neighbours of the number on that decimal grid are tested against the
interval in exact arithmetic.
-/

namespace Mend

/-- A finite binary floating-point number: `mantissa · 2 ^ exponent`, negative or not. -/
structure Binary64 where
  /-- Whether the sign is negative. -/
  negative : Bool
  /-- The integer significand. -/
  mantissa : Nat
  /-- The power of two. -/
  exponent : Int

/-- A finite number taken apart. -/
def Binary64.ofFloat (x : Float) : Binary64 :=
  let bits : Nat := x.toBits.toNat
  let e : Nat := bits / 2 ^ 52 % 2048
  let f : Nat := bits % 2 ^ 52
  if e = 0 then ⟨bits / 2 ^ 63 = 1, f, -1074⟩ else ⟨bits / 2 ^ 63 = 1, f + 2 ^ 52, e - 1075⟩

/-- Decimal digits and a power of ten: `digits · 10 ^ exponent`. -/
structure Decimal where
  /-- The digits, as one number. -/
  digits : Nat
  /-- The power of ten. -/
  exponent : Int
  deriving Repr

/-- The reals that round to a number, as fractions over one denominator. -/
structure RoundingInterval where
  /-- Numerator of the lower end. -/
  low : Nat
  /-- Numerator of the number itself. -/
  middle : Nat
  /-- Numerator of the upper end. -/
  high : Nat
  /-- The common denominator. -/
  unit : Nat
  /-- Whether the two ends belong to the interval. -/
  closed : Bool

namespace Decimal

/-- `n · 2 ^ e` and `10 ^ e` as numerator and denominator of a fraction. -/
def scale (base : Nat) (e : Int) : Nat × Nat :=
  match e with
  | .ofNat k => (base ^ k, 1)
  | .negSucc k => (1, base ^ (k + 1))

/-- The interval of a number with a non-zero mantissa. Below a power of two the next number is
twice as near as above it. -/
def interval (b : Binary64) : RoundingInterval :=
  let (num, den) := scale 2 (b.exponent - 2)
  let m := b.mantissa
  let gap := if m = 2 ^ 52 && b.exponent ≠ -1074 then 1 else 2
  ⟨(4 * m - gap) * num, 4 * m * num, (4 * m + 2) * num, den, m % 2 = 0⟩

/-- Whether `d · 10 ^ e` lies in the interval. -/
def inInterval (i : RoundingInterval) (d : Nat) (e : Int) : Bool :=
  let (num, den) := scale 10 e
  let x := d * num * i.unit
  if i.closed then i.low * den ≤ x && x ≤ i.high * den else i.low * den < x && x < i.high * den

/-- The nearer of the two neighbours `d` and `d + 1`, in units of `10 ^ e`, if one of them lies in
the interval; of two at the same distance, the even one. -/
def nearest? (i : RoundingInterval) (e : Int) : Option Nat :=
  let (num, den) := scale 10 e
  let d := i.middle * den / (num * i.unit)
  let excess := 2 * (i.middle * den % (num * i.unit))
  let down := inInterval i d e && d ≠ 0
  let up := inInterval i (d + 1) e
  let preferUp := excess > num * i.unit || (excess = num * i.unit && d % 2 = 1)
  if down && up then some (if preferUp then d + 1 else d)
  else if down then some d
  else if up then some (d + 1)
  else none

/-- The number of decimal digits before the point of a positive fraction, at most zero for one
below a tenth; searched upwards from `k` for at most `fuel` steps. -/
def magnitude (num den : Nat) : Nat → Int → Int
  | 0, k => k
  | fuel + 1, k =>
    let (p, s) := scale 10 k
    if num * s < p * den then k else magnitude num den fuel (k + 1)

/-- The first grid of `n`, `n + 1`, … digits with a hit; `top` digits stand before the point. -/
def firstHit (i : RoundingInterval) (top : Int) : Nat → Nat → Decimal
  | 0, n => ⟨i.middle / i.unit, n⟩
  | fuel + 1, n =>
    match nearest? i (top - n) with
    | some d => ⟨d, top - n⟩
    | none => firstHit i top fuel (n + 1)

/-- The digits without trailing zeros; at most `fuel` are removed. -/
def stripZeros : Nat → Decimal → Decimal
  | 0, d => d
  | fuel + 1, d =>
    if d.digits ≠ 0 && d.digits % 10 = 0 then stripZeros fuel ⟨d.digits / 10, d.exponent + 1⟩ else d

/-- The shortest decimal that reads back as the number; zero for a zero. -/
def shortest (b : Binary64) : Decimal :=
  if b.mantissa = 0 then ⟨0, 0⟩
  else
    let i := interval b
    let top := magnitude i.middle i.unit 700 (-330)
    stripZeros 20 (firstHit i top 20 1)

end Decimal

end Mend
