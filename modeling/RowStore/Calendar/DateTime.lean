import RowStore.Number.Layout

/-!
# Dates with a time of day

A day of the Gregorian calendar and a time in it, without a time zone. A leap second is the
second before it with a nanosecond count of one second or more.
-/

namespace RowStore

structure DateTime where
  year : Int
  month : Nat
  day : Nat
  hour : Nat
  minute : Nat
  second : Nat
  nanosecond : Nat
  deriving DecidableEq

namespace DateTime

/-! ## Which values are days and times -/

def isLeapYear (year : Int) : Bool := year % 4 == 0 && (year % 100 != 0 || year % 400 == 0)

def daysInMonth (year : Int) (month : Nat) : Nat :=
  match month with
  | 2 => if isLeapYear year then 29 else 28
  | 4 | 6 | 9 | 11 => 30
  | _ => 31

/-- The years that a date can have lie within a quarter of a million years of year zero. -/
def isDate (year : Int) (month day : Nat) : Bool :=
  -262143 ≤ year && year ≤ 262142 && 1 ≤ month && month ≤ 12 && 1 ≤ day &&
    day ≤ daysInMonth year month

def isTime (hour minute second nanosecond : Nat) : Bool :=
  hour < 24 && minute < 60 && second < 60 && nanosecond < 2000000000

def isValid (t : DateTime) : Bool :=
  isDate t.year t.month t.day && isTime t.hour t.minute t.second t.nanosecond

def midnight (year : Int) (month day : Nat) : DateTime := ⟨year, month, day, 0, 0, 0, 0⟩

/-- Without what is finer than a microsecond. -/
def toMicrosecond (t : DateTime) : DateTime :=
  { t with nanosecond := t.nanosecond / 1000 * 1000 }

/-! ## Text -/

/-- Four digits, and a sign in front of a year that four digits without one cannot write. -/
def yearChars (year : Int) : List Char :=
  if 0 ≤ year && year ≤ 9999 then paddedChars 4 year.toNat
  else (if year < 0 then '-' else '+') :: paddedChars 4 year.natAbs

/-- A fraction of a second in the fewest of three, six or nine places, or nothing. -/
def fractionChars (nanosecond : Nat) : List Char :=
  if nanosecond = 0 then []
  else if nanosecond % 1000000 = 0 then '.' :: paddedChars 3 (nanosecond / 1000000)
  else if nanosecond % 1000 = 0 then '.' :: paddedChars 6 (nanosecond / 1000)
  else '.' :: paddedChars 9 nanosecond

def dateChars (t : DateTime) : List Char :=
  yearChars t.year ++ '-' :: (paddedChars 2 t.month ++ '-' :: paddedChars 2 t.day)

/-- The time of day. A leap second is written as second sixty. -/
def timeChars (t : DateTime) : List Char :=
  paddedChars 2 t.hour ++ ':' :: (paddedChars 2 t.minute ++
    ':' :: (paddedChars 2 (t.second + t.nanosecond / 1000000000) ++
      fractionChars (t.nanosecond % 1000000000)))

def chars (separator : Char) (t : DateTime) : List Char :=
  t.dateChars ++ separator :: t.timeChars

end DateTime

end RowStore
