import GraphQuery.Number.Shortest

/-!
# The text of a floating point number

A layout says how a shortest decimal is written: which exponents are written positionally, whether
a whole number keeps a decimal, how the exponent is marked, and where a tie between two shortest
decimals goes.

Key definitions: `Layout`, `Layout.text`.
-/

namespace GraphQuery

/-- The choices that one number format makes. -/
structure Layout where
  /-- The exponents of the leading digit for which no exponent is written. -/
  positional : Int → Bool
  /-- A whole number in positional notation ends in `.0`. -/
  keepsPoint : Bool
  /-- A positive exponent has a sign. -/
  marksPlus : Bool
  /-- Of two shortest decimals that are as near, the upper one stands; else the even one. -/
  tieUp : Bool

namespace Layout

def zeros (n : Nat) : String := String.ofList (List.replicate n '0')

/-- The digits with a point, and no exponent. -/
def positionalText (layout : Layout) (digits : String) (exponent : Int) : String :=
  if 0 ≤ exponent then
    digits ++ zeros exponent.toNat ++ (if layout.keepsPoint then ".0" else "")
  else
    let places := (-exponent).toNat
    if places < digits.length then
      let whole := digits.length - places
      String.ofList (digits.toList.take whole) ++ "." ++ String.ofList (digits.toList.drop whole)
    else "0." ++ zeros (places - digits.length) ++ digits

/-- One digit before the point, and an exponent. -/
def scientificText (layout : Layout) (digits : String) (lead : Int) : String :=
  let rest := String.ofList (digits.toList.drop 1)
  let mantissa := String.ofList (digits.toList.take 1) ++ (if rest = "" then "" else "." ++ rest)
  let mark := if lead < 0 then "e-" else if layout.marksPlus then "e+" else "e"
  mantissa ++ mark ++ toString lead.natAbs

/-- The text of a decimal magnitude. -/
def decimalText (layout : Layout) (d : Decimal10) : String :=
  let digits := toString d.digits
  let lead := d.exponent + digits.length - 1
  if layout.positional lead then layout.positionalText digits d.exponent
  else layout.scientificText digits lead

/-- The text of a number. -/
def text (layout : Layout) (x : Binary64) : String :=
  if x.isNaN then "NaN"
  else
    let sign := if x.isNegative then "-" else ""
    sign ++ (if x.isFinite then layout.decimalText (shortest layout.tieUp x) else "inf")

/-- Numbers as a person would write them: positional always, and a whole number without a point. -/
def plain : Layout :=
  { positional := fun _ => true, keepsPoint := false, marksPlus := false, tieUp := true }

/-- Numbers as messages show them: positional from a ten-thousandth up to sixteen digits before the
point. -/
def shown : Layout :=
  { positional := fun lead => -4 ≤ lead && lead < 16, keepsPoint := true, marksPlus := false,
    tieUp := true }

/-- Numbers as JSON text holds them: positional from a hundred-thousandth up to sixteen digits
before the point, and a sign on every exponent. -/
def json : Layout :=
  { positional := fun lead => -5 ≤ lead && lead < 16, keepsPoint := true, marksPlus := true,
    tieUp := false }

end Layout

end GraphQuery
