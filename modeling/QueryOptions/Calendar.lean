import QueryOptions.Text.Line

/-!
Dates and moments of the proleptic Gregorian calendar, years 1 to 9999. A moment may carry its
offset from universal time; without one it is local and comparable with local moments only.
-/

namespace QueryOptions

structure Date where
  year : Nat
  month : Nat
  day : Nat
deriving DecidableEq, Repr

/-- Why numbers do not make a date or a moment. -/
inductive CalendarError where
  | year (given : Nat)
  | month
  | day
  | hour
  | minute
  | second
  | offset (minutes : Int)
deriving DecidableEq, Repr

namespace Date

def isLeapYear (year : Nat) : Bool := year % 4 == 0 && (year % 100 != 0 || year % 400 == 0)

def daysInMonth (year month : Nat) : Nat :=
  if month = 2 then if isLeapYear year then 29 else 28
  else if month = 4 || month = 6 || month = 9 || month = 11 then 30
  else 31

def make? (year month day : Nat) : Except CalendarError Date :=
  if year < 1 || 9999 < year then .error (.year year)
  else if month < 1 || 12 < month then .error .month
  else if day < 1 || daysInMonth year month < day then .error .day
  else .ok ⟨year, month, day⟩

/-- Days before the first of a month within its year. -/
private def daysBeforeMonth (year month : Nat) : Nat :=
  (List.range (month - 1)).foldl (fun days index => days + daysInMonth year (index + 1)) 0

/-- The number of the day, counted from the first day of year 1. -/
def ordinal (date : Date) : Nat :=
  let past := date.year - 1
  past * 365 + past / 4 - past / 100 + past / 400 + daysBeforeMonth date.year date.month + date.day

/-- Year, month and day with hyphens between them. -/
def toText (date : Date) : Text :=
  Text.ofNatPadded 4 date.year ++ "-" ++ Text.ofNatPadded 2 date.month ++ "-" ++
    Text.ofNatPadded 2 date.day

theorem isLine_toText (date : Date) : Text.IsLine date.toText := by
  simp +decide [toText]

end Date

/-- A date with a time of day; the offset is in minutes east of universal time. -/
structure Moment where
  date : Date
  hour : Nat
  minute : Nat
  second : Nat
  microsecond : Nat
  offset : Option Int
deriving DecidableEq, Repr

namespace Moment

def make? (year month day hour minute second microsecond : Nat) (offset : Option Int) :
    Except CalendarError Moment := do
  let date ← Date.make? year month day
  if 23 < hour then throw .hour
  if 59 < minute then throw .minute
  if 59 < second then throw .second
  return ⟨date, hour, minute, second, microsecond, offset⟩

/-- An offset is shorter than a day. -/
def offset? (minutes : Int) : Except CalendarError Int :=
  if -1440 < minutes && minutes < 1440 then .ok minutes else .error (.offset minutes)

/-- Microseconds since the beginning of year 1, by universal time where the offset is known. -/
def instant (moment : Moment) : Int :=
  let minutes : Int := ((moment.date.ordinal * 24 + moment.hour) * 60 + moment.minute : Nat)
  ((minutes - moment.offset.getD 0) * 60 + moment.second) * 1000000 + moment.microsecond

/-- Two moments are the same instant; a local one coincides with itself only. -/
def coincides (left right : Moment) : Bool :=
  match left.offset, right.offset with
  | some _, some _ => left.instant == right.instant
  | none, none => left == right
  | _, _ => false

def offsetText (minutes : Int) : Text :=
  let sign : Text := if minutes < 0 then "-" else "+"
  sign ++ Text.ofNatPadded 2 (minutes.natAbs / 60) ++ ":" ++
    Text.ofNatPadded 2 (minutes.natAbs % 60)

/-- The date, a blank and the time; parts of a second only where there are some. -/
def toText (moment : Moment) : Text :=
  let fraction : Text :=
    if moment.microsecond = 0 then [] else "." ++ Text.ofNatPadded 6 moment.microsecond
  let zone : Text :=
    match moment.offset with
    | none => []
    | some minutes => offsetText minutes
  moment.date.toText ++ " " ++ Text.ofNatPadded 2 moment.hour ++ ":" ++
    Text.ofNatPadded 2 moment.minute ++ ":" ++ Text.ofNatPadded 2 moment.second ++ fraction ++ zone

theorem isLine_offsetText (minutes : Int) : Text.IsLine (offsetText minutes) := by
  unfold offsetText
  dsimp only
  split <;> simp +decide

theorem isLine_toText (moment : Moment) : Text.IsLine moment.toText := by
  have fraction : Text.IsLine (if moment.microsecond = 0 then []
      else "." ++ Text.ofNatPadded 6 moment.microsecond) := by
    split <;> simp +decide
  have zone : Text.IsLine (match moment.offset with
      | none => []
      | some minutes => offsetText minutes) := by
    split
    · exact Text.isLine_nil
    · exact isLine_offsetText _
  unfold toText
  simp +decide [Date.isLine_toText, fraction, zone]

end Moment

end QueryOptions
