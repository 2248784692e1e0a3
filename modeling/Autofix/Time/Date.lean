/-! Dates of the Gregorian calendar, extended to all years, and their numbers. -/
namespace Autofix

structure Date where
  year : Int
  month : Nat
  day : Nat
deriving DecidableEq, Repr

namespace Date

def isLeapYear (year : Int) : Bool := year % 4 == 0 && (year % 100 != 0 || year % 400 == 0)

def monthLengths (year : Int) : List Nat :=
  [31, if isLeapYear year then 29 else 28, 31, 30, 31, 30, 31, 31, 30, 31, 30, 31]

def isValid (d : Date) : Bool :=
  1 ≤ d.month && 1 ≤ d.day && d.day ≤ (monthLengths d.year).getD (d.month - 1) 0

/-- The number of days from the first day of year 1 to the first day of a year. -/
def daysBeforeYear (year : Int) : Int :=
  365 * (year - 1) + (year - 1) / 4 - (year - 1) / 100 + (year - 1) / 400

/-- The number of days from the first day of year 1. -/
def dayNumber (d : Date) : Int :=
  let earlier : Nat := ((monthLengths d.year).take (d.month - 1)).foldr (· + ·) 0
  daysBeforeYear d.year + earlier + d.day - 1

def epochDay : Int := 719162

/-- The year of a day. The quotient by the mean length of a year is off by one at most. -/
def yearOf (dayNumber : Int) : Int :=
  let year := dayNumber * 400 / 146097 + 1
  if daysBeforeYear (year + 1) ≤ dayNumber then year + 1
  else if daysBeforeYear year ≤ dayNumber then year
  else year - 1

/-- The month, counted from `month`, and the day of the month of the day that comes after some days. -/
def inMonths (month : Nat) (days : Nat) : List Nat → Nat × Nat
  | [] => (month, days + 1)
  | length :: rest => if days < length then (month, days + 1) else inMonths (month + 1) (days - length) rest

/-- The date of a day. -/
def ofDayNumber (dayNumber : Int) : Date :=
  let year := yearOf dayNumber
  let (month, day) := inMonths 1 (dayNumber - daysBeforeYear year).toNat (monthLengths year)
  ⟨year, month, day⟩

end Date
end Autofix
