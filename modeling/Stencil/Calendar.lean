/-!
# Dates and moments

Days of the Gregorian calendar from year 1 to 9999, and moments on them to the microsecond, without a
time zone. `Date.mk?` and `Clock.mk?` accept what the calendar and the clock have, and say what is wrong
otherwise.
-/

namespace Stencil

inductive CalendarFault where
  | year (given : Nat)
  | month
  | day
  | hour
  | minute
  | second
  | overflow
deriving DecidableEq

structure Date where
  year : Nat
  month : Nat
  day : Nat
deriving DecidableEq

structure Clock where
  hour : Nat
  minute : Nat
  second : Nat
  microsecond : Nat
deriving DecidableEq

inductive Timestamp where
  | date (date : Date)
  | moment (date : Date) (clock : Clock)
deriving DecidableEq

def isLeapYear (year : Nat) : Bool := year % 4 = 0 && (year % 100 ≠ 0 || year % 400 = 0)

def daysIn (year month : Nat) : Nat :=
  if month = 2 then (if isLeapYear year then 29 else 28)
  else if month = 4 ∨ month = 6 ∨ month = 9 ∨ month = 11 then 30
  else 31

def lastYear : Nat := 9999

def Date.mk? (year month day : Nat) : Except CalendarFault Date :=
  if year < 1 ∨ lastYear < year then .error (.year year)
  else if month < 1 ∨ 12 < month then .error .month
  else if day < 1 ∨ daysIn year month < day then .error .day
  else .ok ⟨year, month, day⟩

def Clock.mk? (hour minute second microsecond : Nat) : Except CalendarFault Clock :=
  if 23 < hour then .error .hour
  else if 59 < minute then .error .minute
  else if 59 < second then .error .second
  else .ok ⟨hour, minute, second, microsecond⟩

def daysBefore (year : Nat) : Nat :=
  let y := year - 1
  365 * y + y / 4 - y / 100 + y / 400

/-- The number of the day, the first of year 1 being day 0. -/
def Date.toDays (d : Date) : Nat :=
  daysBefore d.year + ((List.range (d.month - 1)).map fun m => daysIn d.year (m + 1)).foldr (· + ·) 0 + (d.day - 1)

/-- The day that lies `days` days after the first of `month`, in the same year. -/
def dayInYear (year : Nat) : (month days fuel : Nat) → Date
  | month, days, 0 => ⟨year, month, days + 1⟩
  | month, days, fuel + 1 =>
    if days < daysIn year month then ⟨year, month, days + 1⟩
    else dayInYear year (month + 1) (days - daysIn year month) fuel

/-- The date of a day number, if it falls into the years of the calendar. -/
def Date.ofDays? (days : Int) : Option Date :=
  if days < 0 ∨ daysBefore (lastYear + 1) ≤ days then none
  else
    let n := days.toNat
    let guess := n / 366 + 1
    let year := ((List.range 30).map (guess + ·)).reverse.find? fun y => daysBefore y ≤ n
    year.map fun y => dayInYear y 1 (n - daysBefore y) 11

def Timestamp.shift (date : Date) (clock : Clock) (seconds : Int) : Except CalendarFault Timestamp :=
  let total : Int := date.toDays * 86400 + clock.hour * 3600 + clock.minute * 60 + clock.second + seconds
  match Date.ofDays? (total.fdiv 86400) with
  | none => .error .overflow
  | some d =>
    let s := (total.fmod 86400).toNat
    .ok (.moment d ⟨s / 3600, s / 60 % 60, s % 60, clock.microsecond⟩)

def padded (width n : Nat) : List Char :=
  let ds := Nat.toDigits 10 n
  List.replicate (width - ds.length) '0' ++ ds

def Date.text (d : Date) : List Char :=
  padded 4 d.year ++ '-' :: padded 2 d.month ++ '-' :: padded 2 d.day

def Clock.text (c : Clock) : List Char :=
  padded 2 c.hour ++ ':' :: padded 2 c.minute ++ ':' :: padded 2 c.second ++
    (if c.microsecond = 0 then [] else '.' :: padded 6 c.microsecond)

/-- A date as 2001-02-03, a moment with the time of day behind a space. -/
def Timestamp.text : Timestamp → List Char
  | .date d => d.text
  | .moment d c => d.text ++ ' ' :: c.text

def CalendarFault.message : CalendarFault → List Char
  | .year y => "year ".toList ++ Nat.toDigits 10 y ++ " is out of range".toList
  | .month => "month must be in 1..12".toList
  | .day => "day is out of range for month".toList
  | .hour => "hour must be in 0..23".toList
  | .minute => "minute must be in 0..59".toList
  | .second => "second must be in 0..59".toList
  | .overflow => "date value out of range".toList

end Stencil
