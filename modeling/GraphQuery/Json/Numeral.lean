import GraphQuery.Json.Basic

/-!
# Numbers in JSON text

A numeral is a whole number when it has neither a fraction nor an exponent and fits 64 bits, with a
sign or without; all others, `-0` among them, are floating. A floating numeral is read in two
roundings: as many leading digits as fit 64 bits make the significand, and the significand as a
floating point number is scaled by a floating point power of ten. A numeral too large to be finite
is refused; one too small becomes zero.

Key definitions: `Numeral`, `Numeral.ofChars?`, `Numeral.number?`.
-/

namespace GraphQuery

/-- The parts of a number in JSON text. -/
structure Numeral where
  negative : Bool
  whole : List Nat
  fraction : Option (List Nat)
  exponent : Option Int

namespace Numeral

/-- The value of a decimal digit. -/
def digitValue (c : Char) : Nat := c.toNat - '0'.toNat

/-- The digits at the start of a text, and the rest. -/
def spanDigits (cs : List Char) : List Nat × List Char :=
  ((cs.takeWhile Char.isDigit).map digitValue, cs.dropWhile Char.isDigit)

/-- The number that digits write. -/
def digitsValue (digits : List Nat) : Nat := digits.foldl (fun value d => value * 10 + d) 0

/-- The sign at the start of a text, and the rest. -/
def spanMinus : List Char → Bool × List Char
  | '-' :: rest => (true, rest)
  | cs => (false, cs)

/-- A point and the digits after it, of which there is at least one. -/
def spanFraction : List Char → Option (Option (List Nat) × List Char)
  | '.' :: rest =>
    let (digits, rest) := spanDigits rest
    if digits.isEmpty then none else some (some digits, rest)
  | cs => some (none, cs)

/-- The sign of an exponent, and the rest. -/
def spanSign : List Char → Bool × List Char
  | '+' :: rest => (false, rest)
  | cs => spanMinus cs

/-- An exponent mark, a sign and at least one digit. -/
def spanExponent (cs : List Char) : Option (Option Int × List Char) :=
  match cs with
  | c :: rest =>
    if c = 'e' ∨ c = 'E' then
      let (negative, rest) := spanSign rest
      let (digits, rest) := spanDigits rest
      if digits.isEmpty then none
      else
        let size : Int := digitsValue digits
        some (some (if negative then -size else size), rest)
    else some (none, cs)
  | [] => some (none, [])

/-- Reads a whole text as a numeral. A leading zero stands alone. -/
def ofChars? (cs : List Char) : Option Numeral := do
  let (negative, rest) := spanMinus cs
  let (whole, rest) := spanDigits rest
  if whole.isEmpty || (whole.head? = some 0 && 1 < whole.length) then none
  else
    let (fraction, rest) ← spanFraction rest
    let (exponent, rest) ← spanExponent rest
    if rest.isEmpty then some { negative, whole, fraction, exponent } else none

/-- Significands stay below this. -/
def significandLimit : Nat := UInt64.size

/-- Takes whole digits into the significand while they fit; counts those left over. -/
def takeWhole : Nat → List Nat → Nat × Nat
  | significand, [] => (significand, 0)
  | significand, d :: ds =>
    if significand * 10 + d < significandLimit then takeWhole (significand * 10 + d) ds
    else (significand, ds.length + 1)

/-- Takes digits of the fraction into the significand while they fit; counts those taken. -/
def takeFraction : Nat → List Nat → Nat × Nat
  | significand, [] => (significand, 0)
  | significand, d :: ds =>
    if significand * 10 + d < significandLimit then
      let (filled, count) := takeFraction (significand * 10 + d) ds
      (filled, count + 1)
    else (significand, 0)

/-- The largest power of ten that is a finite floating point number. -/
def largestPower : Nat := 308

/-- A power of ten as a floating point number. -/
def powerOfTen (k : Nat) : Binary64 := .ofNat (Nat.pow 10 k)

/-- A magnitude times a power of ten, if that is finite. -/
def raise? (x : Binary64) (k : Nat) : Option Binary64 :=
  if x.isZero then some x
  else if largestPower < k then none
  else
    let product := x.mulMagnitude (powerOfTen k)
    if product.isFinite then some product else none

/-- A magnitude divided by a power of ten, in two steps if the power is not finite. Two steps make
every significand zero, so there is no need for a third. -/
def lower (x : Binary64) (k : Nat) : Binary64 :=
  if k ≤ largestPower then x.divMagnitude (powerOfTen k)
  else
    (x.divMagnitude (powerOfTen largestPower)).divMagnitude
      (powerOfTen (min (k - largestPower) largestPower))

/-- A significand scaled by a power of ten. -/
def scale? (significand : Nat) (exponent : Int) : Option Binary64 :=
  if 0 ≤ exponent then raise? (.ofNat significand) exponent.toNat
  else some (lower (.ofNat significand) (-exponent).toNat)

/-- The floating point number of a numeral. -/
def float? (n : Numeral) : Option Number :=
  let (significand, gained) := takeWhole 0 n.whole
  let (significand, lost) := takeFraction significand (n.fraction.getD [])
  let exponent : Int := gained - lost + n.exponent.getD 0
  (scale? significand exponent).map fun x => .float (x.withSign n.negative)

/-- The number that a numeral stands for, if there is one. -/
def number? (n : Numeral) : Option Number :=
  let size := digitsValue n.whole
  if n.fraction.isSome || n.exponent.isSome then n.float?
  else if !n.negative && size < UInt64.size then some (.int size)
  else if n.negative && 0 < size && size ≤ Nat.pow 2 63 then some (.int (-size))
  else n.float?

end Numeral

end GraphQuery
