/-!
# Floating point numbers of the binary64 format

A number is its 64-bit pattern: a sign, eleven exponent bits and a fraction of 52 bits. A finite
magnitude is a whole multiple of the least positive one, `2 ^ 1074` of which make one, and the
pattern without its sign counts the magnitudes in increasing order. So rounding an exact quotient
needs whole-number arithmetic only.

Key definitions: `Binary64`, `Binary64.steps`, `Binary64.ofRatio`, `Binary64.roundToSingle`.
-/

namespace GraphQuery

/-- A binary64 number, by its bit pattern. -/
structure Binary64 where
  bits : UInt64
  deriving DecidableEq

/-- The quotient of two whole numbers, rounded to the nearest whole number; a half goes to the even
neighbour. -/
def roundQuotient (num den : Nat) : Nat :=
  let down := num / den
  let twice := 2 * (num % den)
  if den < twice ∨ (den = twice ∧ down % 2 = 1) then down + 1 else down

namespace Binary64

/-- The number of magnitudes in a binade. -/
def binade : Nat := Nat.pow 2 52

/-- The number of least positive magnitudes in one. -/
def stepsInOne : Nat := Nat.pow 2 1074

/-- The sign bit. -/
def isNegative (x : Binary64) : Bool := x.bits.toNat / Nat.pow 2 63 = 1

/-- The exponent bits. -/
def exponentBits (x : Binary64) : Nat := x.bits.toNat / binade % Nat.pow 2 11

/-- The fraction bits. -/
def fraction (x : Binary64) : Nat := x.bits.toNat % binade

/-- Neither infinite nor NaN. -/
def isFinite (x : Binary64) : Bool := x.exponentBits < 2047

/-- No number at all. -/
def isNaN (x : Binary64) : Bool := !x.isFinite && x.fraction ≠ 0

/-- The significand of a finite number: subnormal magnitudes have no leading one. -/
def significand (x : Binary64) : Nat :=
  if x.exponentBits = 0 then x.fraction else binade + x.fraction

/-- The power of two, counted from the least positive magnitude, that scales the significand. -/
def scale (x : Binary64) : Nat := x.exponentBits - 1

/-- The magnitude of a finite number in least positive magnitudes. -/
def steps (x : Binary64) : Nat := x.significand * Nat.pow 2 x.scale

/-- Zero of either sign. -/
def isZero (x : Binary64) : Bool := x.steps = 0

/-- The pattern with a given sign and a given count of magnitudes below. -/
def ofMagnitude (negative : Bool) (count : Nat) : Binary64 :=
  ⟨UInt64.ofNat ((if negative then Nat.pow 2 63 else 0) + count)⟩

/-- How many magnitudes lie below infinity. -/
def infinityCount : Nat := 2047 * binade

def infinity (negative : Bool) : Binary64 := ofMagnitude negative infinityCount

def nan : Binary64 := ofMagnitude false (infinityCount + binade / 2)

/-- The same magnitude with the given sign. -/
def withSign (negative : Bool) (x : Binary64) : Binary64 :=
  ofMagnitude negative (x.bits.toNat % Nat.pow 2 63)

/-- The magnitude nearest to a quotient on a grid of floating point numbers: the result is the
rounded significand and the power of two, in steps of the grid, that scales it. The significand has
one bit more than `precision`, and `stepsPerOne` steps make one. -/
def nearest (precision stepsPerOne num den : Nat) : Nat × Nat :=
  let scale := (num * stepsPerOne / den).log2 - precision
  (roundQuotient (num * stepsPerOne) (den * Nat.pow 2 scale), scale)

/-- The number nearest to a quotient, a half going to the even neighbour. What lies too far out
becomes infinite. -/
def ofRatio (negative : Bool) (num den : Nat) : Binary64 :=
  let (significand, scale) := nearest 52 stepsInOne num den
  ofMagnitude negative (min (scale * binade + significand) infinityCount)

def ofNat (n : Nat) : Binary64 := ofRatio false n 1

/-- The product of the magnitudes, rounded. -/
def mulMagnitude (x y : Binary64) : Binary64 :=
  ofRatio false (x.steps * y.steps) (stepsInOne * stepsInOne)

/-- The quotient of the magnitudes, rounded. -/
def divMagnitude (x y : Binary64) : Binary64 := ofRatio false x.steps y.steps

/-- The number rounded to the binary32 format, where 24 bits and exponents up to 127 are kept. What
does not fit becomes infinite; infinities and NaN stay. -/
def roundToSingle (x : Binary64) : Binary64 :=
  if x.isFinite then
    let (significand, scale) := nearest 23 (Nat.pow 2 149) x.steps stepsInOne
    if significand * Nat.pow 2 scale < Nat.pow 2 (128 + 149) then
      ofRatio x.isNegative (significand * Nat.pow 2 scale) (Nat.pow 2 149)
    else infinity x.isNegative
  else x

end Binary64

end GraphQuery
