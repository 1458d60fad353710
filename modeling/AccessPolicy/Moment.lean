/-!
# Moments

A moment of a clock that shows local time and its distance from universal time,
in the Gregorian calendar extended to all years.
-/

namespace AccessPolicy

/-- The reading of a clock. The offset is in seconds east of universal time. -/
structure Moment where
  year : Int
  month : Nat
  day : Nat
  hour : Nat := 0
  minute : Nat := 0
  second : Nat := 0
  nanosecond : Nat := 0
  offset : Int := 0
deriving DecidableEq

namespace Moment

/-! ## Calendar -/

def isLeapYear (year : Int) : Bool := year % 4 = 0 && (year % 100 ≠ 0 || year % 400 = 0)

/-- The days of a common year before each month. -/
def daysBeforeMonth : List Nat := [0, 31, 59, 90, 120, 151, 181, 212, 243, 273, 304, 334]

def daysBefore (year : Int) (month : Nat) : Nat :=
  daysBeforeMonth.getD (month - 1) 0 + if isLeapYear year ∧ 2 < month then 1 else 0

/-- The day of the year, from one. -/
def dayOfYear (m : Moment) : Nat := daysBefore m.year m.month + m.day

/-- The number of the day, from one on the first day of the year one. -/
def dayNumber (m : Moment) : Int :=
  let past := m.year - 1
  365 * past + Int.fdiv past 4 - Int.fdiv past 100 + Int.fdiv past 400 + m.dayOfYear

/-- The names of the weekdays, from that of day zero. -/
def weekdays : List String :=
  ["Sunday", "Monday", "Tuesday", "Wednesday", "Thursday", "Friday", "Saturday"]

def weekday (m : Moment) : String := weekdays.getD (m.dayNumber % 7).toNat ""

/-- The start of the day with a number. Years are counted in cycles of 400, 100
and 4, of which the last of each may be a day longer. -/
def ofDayNumber (n : Int) : Moment :=
  let cycle := Int.fdiv (n - 1) 146097
  let rest := (Int.fmod (n - 1) 146097).toNat
  let century := min (rest / 36524) 3
  let rest := rest - century * 36524
  let four := rest / 1461
  let rest := rest % 1461
  let single := min (rest / 365) 3
  let dayOfYear := rest - single * 365 + 1
  let year := 400 * cycle + 100 * century + 4 * four + single + 1
  let month := ((List.range 13).drop 1).countP fun month => daysBefore year month < dayOfYear
  { year, month, day := dayOfYear - daysBefore year month }

/-- The moment so many nanoseconds after the start of 1970, in universal time. -/
def ofEpoch (nanoseconds : Int) : Moment :=
  let seconds := Int.fdiv nanoseconds 1000000000
  let time := (Int.fmod seconds 86400).toNat
  { ofDayNumber (719163 + Int.fdiv seconds 86400) with
    hour := time / 3600
    minute := time / 60 % 60
    second := time % 60
    nanosecond := (Int.fmod nanoseconds 1000000000).toNat }

/-! ## Text -/

def padded (width n : Nat) : String :=
  let digits := toString n
  String.ofList (List.replicate (width - digits.length) '0') ++ digits

/-- The year with four digits or more, and a sign if it is negative. -/
def yearText (m : Moment) (width : Nat) : String :=
  if m.year < 0 then "-" ++ padded width m.year.natAbs else padded width m.year.toNat

/-- The date with a year of so many digits or more. -/
def dateText (m : Moment) (yearWidth : Nat) : String :=
  m.yearText yearWidth ++ "-" ++ padded 2 m.month ++ "-" ++ padded 2 m.day

/-- The date with a year of four characters or more, its sign included. -/
def date (m : Moment) : String := m.dateText (if m.year < 0 then 3 else 4)

/-- The digits of the fraction of a second, without zeros at the end. -/
def fraction (m : Moment) : String :=
  String.ofList ((padded 9 m.nanosecond).toList.reverse.dropWhile (· == '0')).reverse

def offsetSign (m : Moment) : String := if m.offset < 0 then "-" else "+"

def offsetHours (m : Moment) : Nat := m.offset.natAbs / 3600

def offsetMinutes (m : Moment) : Nat := m.offset.natAbs / 60 % 60

def offsetSeconds (m : Moment) : Nat := m.offset.natAbs % 60

/-- Can the moment be a standard time stamp? The year has to have four digits,
and the offset no seconds and less than a day. -/
def hasStandardStamp (m : Moment) : Bool :=
  0 ≤ m.year && m.year < 10000 && m.offsetHours < 24 && m.offsetSeconds = 0

/-- The standard time stamp of the internet. -/
def standardStamp (m : Moment) : String :=
  let fraction := if m.nanosecond = 0 then "" else "." ++ m.fraction
  let offset :=
    if m.offset = 0 then "Z"
    else m.offsetSign ++ padded 2 m.offsetHours ++ ":" ++ padded 2 m.offsetMinutes
  m.dateText 4 ++ "T" ++ padded 2 m.hour ++ ":" ++ padded 2 m.minute ++ ":" ++ padded 2 m.second
    ++ fraction ++ offset

/-- The moment in full, for moments without a standard time stamp. -/
def fullStamp (m : Moment) : String :=
  let fraction := if m.nanosecond = 0 then "0" else m.fraction
  m.dateText 4 ++ " " ++ toString m.hour ++ ":" ++ padded 2 m.minute ++ ":" ++ padded 2 m.second
    ++ "." ++ fraction ++ " " ++ m.offsetSign ++ padded 2 m.offsetHours ++ ":"
    ++ padded 2 m.offsetMinutes ++ ":" ++ padded 2 m.offsetSeconds

def stamp (m : Moment) : String := if m.hasStandardStamp then m.standardStamp else m.fullStamp

end Moment
end AccessPolicy
