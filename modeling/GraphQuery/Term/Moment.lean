import GraphQuery.Term.Basic

/-!
# Dates and times

A moment on the calendar, alone or with its offset from universal time, as text. A moment alone
shows microseconds, all six of them, when there are any. A moment with an offset shows as many
digits of the second as it needs and writes `Z` for no offset; years or offsets for which that
notation has no room are written in a wider one, with a blank between the parts.

Key definitions: `Moment`, `Moment.text`, `Offset`, `Moment.textWithOffset`.
-/

namespace GraphQuery

/-- A date and a time of day. -/
structure Moment where
  year : Int
  month : Nat
  day : Nat
  hour : Nat
  minute : Nat
  second : Nat
  nanosecond : Nat
  deriving DecidableEq

/-- A distance from universal time, whose parts go the same way. -/
structure Offset where
  hours : Int
  minutes : Int
  seconds : Int
  deriving DecidableEq

/-- A number of at least `width` digits. -/
def padded (width n : Nat) : String := String.ofList (padLeft width n)

/-- The digits of a fraction of `width` digits without the zeros at its end. -/
def trimmedFraction (width n : Nat) : List Char :=
  ((padLeft width n).reverse.dropWhile (· = '0')).reverse

namespace Moment

/-- The start of a day. -/
def midnight (year : Int) (month day : Nat) : Moment := ⟨year, month, day, 0, 0, 0, 0⟩

/-- A year of at least four digits. -/
def yearText (year : Int) : String :=
  (if year < 0 then "-" else "") ++ padded 4 year.natAbs

def dateText (m : Moment) : String :=
  yearText m.year ++ "-" ++ padded 2 m.month ++ "-" ++ padded 2 m.day

/-- The time of day to the second, its hour with at least `width` digits. -/
def clockText (width : Nat) (m : Moment) : String :=
  padded width m.hour ++ ":" ++ padded 2 m.minute ++ ":" ++ padded 2 m.second

/-- A moment alone. -/
def text (m : Moment) : String :=
  let micros := m.nanosecond / 1000
  m.dateText ++ "T" ++ m.clockText 2 ++ (if micros = 0 then "" else "." ++ padded 6 micros)

end Moment

namespace Offset

def isZero (o : Offset) : Bool := o.hours = 0 && o.minutes = 0 && o.seconds = 0

def sign (o : Offset) : String := if o.hours < 0 ∨ o.minutes < 0 ∨ o.seconds < 0 then "-" else "+"

/-- Hours and minutes. -/
def shortText (o : Offset) : String :=
  o.sign ++ padded 2 o.hours.natAbs ++ ":" ++ padded 2 o.minutes.natAbs

/-- Hours, minutes and seconds. -/
def longText (o : Offset) : String := o.shortText ++ ":" ++ padded 2 o.seconds.natAbs

end Offset

namespace Moment

/-- Whether the short notation has room for a moment and its offset: years of four digits, offsets
of less than a day in whole minutes. -/
def fitsShort (m : Moment) (o : Offset) : Bool :=
  0 ≤ m.year && m.year ≤ 9999 && o.hours.natAbs < 24 && o.seconds = 0

/-- A moment with its offset. -/
def textWithOffset (m : Moment) (o : Offset) : String :=
  let fraction := String.ofList (trimmedFraction 9 m.nanosecond)
  if m.fitsShort o then
    m.dateText ++ "T" ++ m.clockText 2 ++ (if fraction = "" then "" else "." ++ fraction) ++
      (if o.isZero then "Z" else o.shortText)
  else
    m.dateText ++ " " ++ m.clockText 1 ++ "." ++ (if fraction = "" then "0" else fraction) ++ " " ++
      o.longText

end Moment

end GraphQuery
