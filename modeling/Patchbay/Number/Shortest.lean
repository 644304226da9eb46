/-!
# Shortest decimals that read back

A positive binary floating-point number `m * 2 ^ e` is the nearest one to every real in an interval
around it, ends included exactly if `m` is even. `shortest` gives a decimal in that interval with as
few digits as any, and among those the nearest to the number; of two equally near ones it takes the
even coefficient.

The search is by exact arithmetic on natural numbers: on the grid of decimals with `n` digits only
the two neighbours of the number can be the nearest hit, so for each `n` in turn those two are
tested.
-/

namespace Patchbay

/-- The positive number `coefficient * 10 ^ exponent`. -/
structure Decimal where
  /-- The digits as one number. -/
  coefficient : Nat
  /-- The power of ten that scales them. -/
  exponent : Int
  deriving DecidableEq, Repr

namespace Decimal

/-- The number of decimal digits of `n`, one for zero. -/
def digitCount (n : Nat) : Nat := (Nat.toDigits 10 n).length

/-- The exponent of the first decimal digit of the positive fraction `a / b`: the greatest `k` with
`10 ^ k ≤ a / b`. -/
def leadingExponent (a b : Nat) : Int :=
  if b ≤ a then Int.ofNat (digitCount (a / b) - 1)
  else
    let d := digitCount b - digitCount a
    if b ≤ a * Nat.pow 10 d then -Int.ofNat d else -Int.ofNat (d + 1)

/-- The reals that a binary number stands for, as the fractions `low / den` to `high / den` around
`mid / den`. -/
structure Interval where
  /-- Numerator of the lower end. -/
  low : Nat
  /-- Numerator of the number itself. -/
  mid : Nat
  /-- Numerator of the upper end. -/
  high : Nat
  /-- The common denominator. -/
  den : Nat
  /-- Whether the ends belong to the interval. -/
  closed : Bool

/-- The interval of `m * 2 ^ e`. Its lower half is only half as long as the upper one if `m` is the
least mantissa of its exponent (`narrowBelow`). -/
def Interval.of (m : Nat) (e : Int) (narrowBelow : Bool) : Interval :=
  let up := Nat.pow 2 (e - 2).toNat
  { low := (4 * m - (if narrowBelow then 1 else 2)) * up
    mid := 4 * m * up
    high := (4 * m + 2) * up
    den := Nat.pow 2 (2 - e).toNat
    closed := m % 2 == 0 }

/-- Whether the interval holds `c * 10 ^ g`. -/
def Interval.holds (i : Interval) (g : Int) (c : Nat) : Bool :=
  let x := c * Nat.pow 10 g.toNat * i.den
  let scale := Nat.pow 10 (-g).toNat
  if i.closed then decide (i.low * scale ≤ x) && decide (x ≤ i.high * scale)
  else decide (i.low * scale < x) && decide (x < i.high * scale)

/-- The nearest hit on the grid of multiples of `10 ^ g`, if either neighbour is one. -/
def Interval.nearestOn? (i : Interval) (g : Int) : Option Nat :=
  let unit := Nat.pow 10 g.toNat * i.den
  let x := i.mid * Nat.pow 10 (-g).toNat
  let below := x / unit
  let gap := x - below * unit
  match i.holds g below, i.holds g (below + 1) with
  | true, true =>
    if 2 * gap < unit then some below
    else if unit < 2 * gap then some (below + 1)
    else if below % 2 = 0 then some below
    else some (below + 1)
  | true, false => some below
  | false, true => some (below + 1)
  | false, false => none

/-- Moves trailing zeros from the coefficient into the exponent. The first argument bounds the
number of zeros moved. -/
def strip : Nat → Decimal → Decimal
  | 0, d => d
  | n + 1, d =>
    if d.coefficient % 10 = 0 ∧ d.coefficient ≠ 0 then
      strip n { coefficient := d.coefficient / 10, exponent := d.exponent + 1 }
    else d

/-- A shortest decimal in the interval of `m * 2 ^ e` with at most `most` digits, nearest first. -/
def shortest (most m : Nat) (e : Int) (narrowBelow : Bool) : Decimal :=
  let i := Interval.of m e narrowBelow
  let lead := leadingExponent i.mid i.den
  let onGrid (n : Nat) : Option Decimal :=
    let g := lead - Int.ofNat n
    (i.nearestOn? g).map fun c => { coefficient := c, exponent := g }
  let found := ((List.range most).findSome? onGrid).getD { coefficient := m, exponent := 0 }
  found.strip (digitCount found.coefficient)

end Decimal

end Patchbay
