import GraphQuery.Number.Binary64

/-!
# The shortest decimal of a floating point number

Among the decimals that are nearer to a given number than to any other, some have the fewest
digits; of these the one nearest to the number stands for it. All comparisons are exact. The number
is a count of quarter steps over a common denominator, so that the midpoints to both neighbours are
whole counts too.

Key definitions: `Decimal10`, `Interval`, `shortest`.
-/

namespace GraphQuery

/-- A decimal magnitude: `digits * 10 ^ exponent`. -/
structure Decimal10 where
  digits : Nat
  exponent : Int
  deriving DecidableEq

/-- The quotient `num / den` divided by `10 ^ exponent`, again as a quotient. -/
def shiftDecimal (num den : Nat) (exponent : Int) : Nat × Nat :=
  if 0 ≤ exponent then (num, den * Nat.pow 10 exponent.toNat)
  else (num * Nat.pow 10 (-exponent).toNat, den)

/-- The reals that round to one number: all between `low` and `high` over `den`, the ends included
when `closed`. -/
structure Interval where
  low : Nat
  value : Nat
  high : Nat
  den : Nat
  closed : Bool

namespace Interval

/-- The interval of a finite number. Below a power of two the numbers lie twice as dense. -/
def ofBinary64 (x : Binary64) : Interval :=
  let unit := Nat.pow 2 x.scale
  let below := if x.fraction = 0 ∧ 0 < x.scale then 1 else 2
  { low := (4 * x.significand - below) * unit
    value := 4 * x.significand * unit
    high := (4 * x.significand + 2) * unit
    den := 4 * Binary64.stepsInOne
    closed := x.significand % 2 = 0 }

/-- Whether a decimal lies in the interval. -/
def contains (i : Interval) (d : Decimal10) : Bool :=
  let inside (a b : Nat) : Bool := if i.closed then a ≤ b else a < b
  let (low, den) := shiftDecimal i.low i.den d.exponent
  let (high, _) := shiftDecimal i.high i.den d.exponent
  inside low (d.digits * den) && inside (d.digits * den) high

/-- The decimal of the interval on the grid of multiples of `10 ^ exponent` that is nearest to the
value, if there is one. When both neighbours of the value are as near, `tieUp` decides between the
upper and the even one. -/
def onGrid (i : Interval) (tieUp : Bool) (exponent : Int) : Option Decimal10 :=
  let (value, den) := shiftDecimal i.value i.den exponent
  let down : Decimal10 := ⟨value / den, exponent⟩
  let up : Decimal10 := ⟨value / den + 1, exponent⟩
  let twice := 2 * (value % den)
  let upward := den < twice || (den = twice && (tieUp || down.digits % 2 = 1))
  match i.contains down, i.contains up with
  | true, true => some (if upward then up else down)
  | true, false => some down
  | false, true => some up
  | false, false => none

end Interval

/-- The power of ten of the leading digit of a positive quotient that is at least `10 ^ -400`. -/
def leadingExponent (num den : Nat) : Int :=
  (Nat.toDigits 10 (num * Nat.pow 10 400 / den)).length - 401

/-- The same decimal without trailing zeros, at most `fuel` of which are taken off. -/
def Decimal10.strip : Nat → Decimal10 → Decimal10
  | 0, d => d
  | fuel + 1, d => if d.digits % 10 = 0 then strip fuel ⟨d.digits / 10, d.exponent + 1⟩ else d

/-- The shortest decimal that rounds to a finite number. Seventeen digits always suffice. -/
def shortest (tieUp : Bool) (x : Binary64) : Decimal10 :=
  if x.isZero then ⟨0, 0⟩
  else
    let interval := Interval.ofBinary64 x
    let lead := leadingExponent interval.value interval.den
    let found := (List.range 17).findSome? fun (k : Nat) => interval.onGrid tieUp (lead - (k : Int))
    (found.getD ⟨interval.value / interval.den, 0⟩).strip 17

end GraphQuery
