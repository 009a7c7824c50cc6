/-!
Dates of the Gregorian calendar, before its introduction too, and their day numbers counted from
1970-01-01. Years are reckoned from March, so that the leap day is the last of its year.
-/

namespace AddressLookup

structure Date where
  year : Int
  month : Nat
  day : Nat
  deriving DecidableEq, Repr

namespace Date

def isLeapYear (year : Int) : Bool :=
  year % 4 = 0 && (year % 100 ≠ 0 || year % 400 = 0)

def daysInMonth (year : Int) (month : Nat) : Nat :=
  if month = 2 then if isLeapYear year then 29 else 28
  else if month = 4 || month = 6 || month = 9 || month = 11 then 30
  else 31

def firstYear : Int := -262143

def lastYear : Int := 262142

def isValid (d : Date) : Bool :=
  firstYear ≤ d.year && d.year ≤ lastYear && 1 ≤ d.month && d.month ≤ 12 &&
    1 ≤ d.day && d.day ≤ daysInMonth d.year d.month

def cycle : Int := 146097

/-- The day number of 1970-01-01, counted from the first of March of year zero. -/
def epochOffset : Int := 719468

def daysBeforeYear (yearOfCycle : Int) : Int :=
  365 * yearOfCycle + yearOfCycle / 4 - yearOfCycle / 100

def daysBeforeMonth (monthFromMarch : Int) : Int :=
  (153 * monthFromMarch + 2) / 5

def dayNumber (d : Date) : Int :=
  let year := if d.month ≤ 2 then d.year - 1 else d.year
  let month : Int := if d.month ≤ 2 then d.month + 9 else d.month - 3
  cycle * (year / 400) + daysBeforeYear (year % 400) + daysBeforeMonth month + (d.day - 1) - epochOffset

def ofDayNumber (n : Int) : Date :=
  let shifted := n + epochOffset
  let inCycle := shifted % cycle
  let yearOfCycle := (inCycle - inCycle / 1460 + inCycle / 36524 - inCycle / 146096) / 365
  let inYear := inCycle - daysBeforeYear yearOfCycle
  let month := (5 * inYear + 2) / 153
  let day := inYear - daysBeforeMonth month + 1
  let year := yearOfCycle + 400 * (shifted / cycle)
  if month < 10 then ⟨year, (month + 3).toNat, day.toNat⟩ else ⟨year + 1, (month - 9).toNat, day.toNat⟩

end Date

end AddressLookup
