/-!
# Dates and times of day

Days of the proleptic Gregorian calendar and times of a day with nanoseconds. The types hold only
days and times that exist; a leap second is second 59 with a nanosecond part of a second or more.
-/

namespace ScriptHost

/-- Whether a year has 366 days. -/
def isLeapYear (year : Int) : Bool := year % 4 == 0 && (year % 100 != 0 || year % 400 == 0)

/-- The number of days of a month. -/
def daysInMonth (year : Int) (month : Nat) : Nat :=
  if month == 2 then (if isLeapYear year then 29 else 28)
  else if month == 4 || month == 6 || month == 9 || month == 11 then 30
  else 31

/-- The first year of the calendar. -/
def minYear : Int := -262143

/-- The last year of the calendar. -/
def maxYear : Int := 262142

/-- The day exists. -/
def IsDay (year : Int) (month day : Nat) : Prop :=
  minYear ≤ year ∧ year ≤ maxYear ∧ 1 ≤ month ∧ month ≤ 12 ∧ 1 ≤ day ∧
    day ≤ daysInMonth year month

instance (year : Int) (month day : Nat) : Decidable (IsDay year month day) :=
  inferInstanceAs (Decidable (_ ∧ _ ∧ _ ∧ _ ∧ _ ∧ _))

/-- A day of the calendar. -/
structure Date where
  /-- The year; year 0 precedes year 1. -/
  year : Int
  /-- The month, from 1. -/
  month : Nat
  /-- The day of the month, from 1. -/
  day : Nat
  isDay : IsDay year month day
  deriving DecidableEq

/-- The time exists. -/
def IsTime (hour minute second nano : Nat) : Prop :=
  hour < 24 ∧ minute < 60 ∧ second < 60 ∧
    (nano < 1000000000 ∨ (second = 59 ∧ nano < 2000000000))

instance (hour minute second nano : Nat) : Decidable (IsTime hour minute second nano) :=
  inferInstanceAs (Decidable (_ ∧ _ ∧ _ ∧ _))

/-- A time of the day. -/
structure Time where
  /-- The hour, from 0. -/
  hour : Nat
  /-- The minute. -/
  minute : Nat
  /-- The second. -/
  second : Nat
  /-- The nanoseconds since the second began; a second or more in a leap second. -/
  nano : Nat
  isTime : IsTime hour minute second nano
  deriving DecidableEq

/-- A time of a day of the calendar. -/
structure DateTime where
  /-- The day. -/
  date : Date
  /-- The time of the day. -/
  time : Time
  deriving DecidableEq

/-- The day with the given parts, if it exists. -/
def Date.ofParts? (year : Int) (month day : Nat) : Option Date :=
  if h : IsDay year month day then some ⟨year, month, day, h⟩ else none

/-- The time with the given parts, if it exists. -/
def Time.ofParts? (hour minute second nano : Nat) : Option Time :=
  if h : IsTime hour minute second nano then some ⟨hour, minute, second, nano, h⟩ else none

instance : Inhabited Date := ⟨⟨1970, 1, 1, by decide⟩⟩
instance : Inhabited Time := ⟨⟨0, 0, 0, 0, by decide⟩⟩
instance : Inhabited DateTime := ⟨⟨default, default⟩⟩

/-- A natural number in at least `width` digits. -/
def paddedDigits (width n : Nat) : String :=
  let digits := Nat.toDigits 10 n
  String.ofList (List.replicate (width - digits.length) '0' ++ digits)

/-- Year, month and day; a year outside four digits carries its sign. -/
def Date.text (d : Date) : String :=
  let year :=
    if d.year < 0 then "-" ++ paddedDigits 4 d.year.natAbs
    else if d.year ≤ 9999 then paddedDigits 4 d.year.natAbs
    else "+" ++ paddedDigits 4 d.year.natAbs
  year ++ "-" ++ paddedDigits 2 d.month ++ "-" ++ paddedDigits 2 d.day

/-- Hour, minute, second, and a fraction of 3, 6 or 9 places if there is one; a leap second is
second 60. -/
def Time.text (t : Time) : String :=
  let leap := 1000000000 ≤ t.nano
  let second := if leap then t.second + 1 else t.second
  let nano := if leap then t.nano - 1000000000 else t.nano
  let fraction :=
    if nano == 0 then ""
    else if nano % 1000000 == 0 then "." ++ paddedDigits 3 (nano / 1000000)
    else if nano % 1000 == 0 then "." ++ paddedDigits 6 (nano / 1000)
    else "." ++ paddedDigits 9 nano
  paddedDigits 2 t.hour ++ ":" ++ paddedDigits 2 t.minute ++ ":" ++ paddedDigits 2 second ++
    fraction

/-- Date and time around `T`. -/
def DateTime.text (t : DateTime) : String := t.date.text ++ "T" ++ t.time.text

/-- Date and time around a space. -/
def DateTime.spacedText (t : DateTime) : String := t.date.text ++ " " ++ t.time.text

end ScriptHost
