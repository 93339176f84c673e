import QueryOptions.Calendar

/-!
Dates and moments as documents write them. Reading splits the text into its parts; whether they make
a date is for the calendar to say.
-/

namespace QueryOptions.Yaml

/-- The zone of a moment: universal time, or an offset to the west or east of it. -/
inductive Zone where
  | universal
  | offset (west : Bool) (hours minutes : Nat)

structure TimeParts where
  hour : Nat
  minute : Nat
  second : Nat
  fraction : Text
  zone : Option Zone

/-- Month and day are kept as digits, since their number matters. -/
structure Timestamp where
  year : Nat
  month : Text
  day : Text
  time : Option TimeParts

namespace Timestamp

private def takeDigits (least most : Nat) (text : Text) : Option (Text × Text) :=
  let digits : Text := (text.take most).takeWhile CodePoint.isAsciiDigit
  if digits.length < least then none else some (digits, text.drop digits.length)

private def takeChar (character : Char) : Text → Option Text
  | [] => none
  | point :: rest => if point = character.toNat then some rest else none

private def takeNumber (least most : Nat) (text : Text) : Option (Nat × Text) :=
  (takeDigits least most text).map fun (digits, rest) => (digits.decimalValue, rest)

private def isSpaceTab (point : CodePoint) : Bool := point = ' '.toNat || point = '\t'.toNat

/-- The minutes of an offset, after a colon; without them the text is at its end. -/
private def offsetMinutes (text : Text) : Option Nat :=
  if text.isEmpty then some 0
  else do
    let (minutes, rest) ← takeNumber 2 2 (← takeChar ':' text)
    if rest.isEmpty then some minutes else none

private def zoneOf (text : Text) : Option Zone :=
  match text with
  | [] => none
  | point :: rest =>
      if point = 'Z'.toNat then if rest.isEmpty then some .universal else none
      else if point = '+'.toNat || point = '-'.toNat then do
        let (hours, rest) ← takeNumber 1 2 rest
        return .offset (point = '-'.toNat) hours (← offsetMinutes rest)
      else none

private def timeOf (text : Text) : Option TimeParts := do
  let (hour, rest) ← takeNumber 1 2 text
  let (minute, rest) ← takeNumber 2 2 (← takeChar ':' rest)
  let (second, rest) ← takeNumber 2 2 (← takeChar ':' rest)
  let (fraction, rest) : Text × Text :=
    match takeChar '.' rest with
    | some tail => (tail.takeWhile CodePoint.isAsciiDigit, tail.dropWhile CodePoint.isAsciiDigit)
    | none => ([], rest)
  if rest.isEmpty then return ⟨hour, minute, second, fraction, none⟩
  else return ⟨hour, minute, second, fraction, some (← zoneOf (rest.dropWhile isSpaceTab))⟩

/-- A letter T or blanks stand between the date and the time. -/
private def afterDate (text : Text) : Option Text :=
  match text with
  | [] => none
  | point :: rest =>
      if point = 'T'.toNat || point = 't'.toNat then some rest
      else if isSpaceTab point then some (rest.dropWhile isSpaceTab)
      else none

def ofText? (text : Text) : Option Timestamp := do
  let (year, rest) ← takeNumber 4 4 text
  let (month, rest) ← takeDigits 1 2 (← takeChar '-' rest)
  let (day, rest) ← takeDigits 1 2 (← takeChar '-' rest)
  if rest.isEmpty then return ⟨year, month, day, none⟩
  else return ⟨year, month, day, some (← timeOf (← afterDate rest))⟩

/-- Whether a plain scalar is a timestamp: a date alone has two digits for the month and for the
day, a moment may have one. -/
def isTimestamp (text : Text) : Bool :=
  match ofText? text with
  | none => false
  | some parts => parts.time.isSome || (parts.month.length = 2 && parts.day.length = 2)

/-- The first six digits of a fraction as microseconds. -/
private def microseconds (fraction : Text) : Nat :=
  let digits : Text := fraction.take 6
  Text.decimalValue (digits ++ List.replicate (6 - digits.length) '0'.toNat)

private def offsetOf : Zone → Except CalendarError Int
  | .universal => .ok 0
  | .offset west hours minutes =>
      let size : Int := (hours * 60 + minutes : Nat)
      Moment.offset? (if west then -size else size)

/-- The date or the moment that the parts make, by the calendar. The zone is judged first. -/
def read (parts : Timestamp) : Except CalendarError (Date ⊕ Moment) := do
  let month := parts.month.decimalValue
  let day := parts.day.decimalValue
  match parts.time with
  | none => return .inl (← Date.make? parts.year month day)
  | some time =>
      let offset ← time.zone.mapM offsetOf
      return .inr (← Moment.make? parts.year month day time.hour time.minute time.second
        (microseconds time.fraction) offset)

end Timestamp

end QueryOptions.Yaml
