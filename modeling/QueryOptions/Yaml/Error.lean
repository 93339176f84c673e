import QueryOptions.Text.Quoted
import QueryOptions.Calendar

/-!
Why a document has no value.
-/

namespace QueryOptions

/-- An offset of minutes as days and seconds. -/
private def spanText (minutes : Int) : Text :=
  let days := minutes.fdiv 1440
  let seconds := minutes.fmod 1440 * 60
  let dayPart : List Text := if days = 0 then [] else ["days=" ++ Text.ofInt days]
  let secondPart : List Text := if seconds = 0 then [] else ["seconds=" ++ Text.ofInt seconds]
  "datetime.timedelta(" ++ Text.join ", " (dayPart ++ secondPart) ++ ")"

private theorem isLine_spanText (minutes : Int) : Text.IsLine (spanText minutes) := by
  have days : Text.IsLine "days=" := by decide
  have seconds : Text.IsLine "seconds=" := by decide
  have parts := List.forall_mem_append.mpr
    ⟨Text.isLine_of_mem_labelled days (minutes.fdiv 1440),
      Text.isLine_of_mem_labelled seconds (minutes.fmod 1440 * 60)⟩
  simp only [spanText, Text.isLine_append, Text.isLine_join ", " (by decide) parts,
    and_true]
  decide

def CalendarError.message : CalendarError → Text
  | .year given => "year " ++ Text.ofNat given ++ " is out of range"
  | .month => "month must be in 1..12"
  | .day => "day is out of range for month"
  | .hour => "hour must be in 0..23"
  | .minute => "minute must be in 0..59"
  | .second => "second must be in 0..59"
  | .offset minutes =>
      "offset must be a timedelta strictly between -timedelta(hours=24) and timedelta(hours=24)," ++
        " not " ++ spanText minutes ++ "."

theorem CalendarError.isLine_message (error : CalendarError) : Text.IsLine error.message := by
  cases error with
  | year given =>
      simp only [message, Text.isLine_append, Text.isLine_ofNat, and_true]
      decide
  | offset minutes =>
      simp only [message, Text.isLine_append, isLine_spanText, and_true]
      decide
  | _ => decide

namespace Yaml

inductive Error where
  /-- The text breaks the rules of the notation. -/
  | malformed
  /-- An escape names a position outside of the code space. -/
  | codePoint (number : Nat)
  | integer (base : Nat) (text : Text)
  | float (text : Text)
  | bool (text : Text)
  | emptyNumber
  /-- The places of a number to the base sixty rise beyond all finite numbers. -/
  | overflow
  | timestamp
  /-- A point in time is written as a collection. -/
  | untextual
  | calendar (error : CalendarError)
deriving DecidableEq, Repr

namespace Error

/-- A number of more than 31 bits is refused before it is taken for a code point. -/
def isWide (number : Nat) : Bool := 0x80000000 ≤ number

/-- How much is shown of a text that is no whole number. -/
def shownLength : Nat := 200

def message : Error → Text
  | .malformed => "the text is malformed"
  | .codePoint number =>
      if isWide number then "Python int too large to convert to C int"
      else "chr() arg not in range(0x110000)"
  | .integer base text =>
      "invalid literal for int() with base " ++ Text.ofNat base ++ ": " ++
        text.quoted.take shownLength
  | .float text => "could not convert string to float: " ++ text.quoted
  | .bool text => text.quoted
  | .emptyNumber => "string index out of range"
  | .overflow => "int too large to convert to float"
  | .timestamp => "'NoneType' object has no attribute 'groupdict'"
  | .untextual => "expected string or bytes-like object, got 'list'"
  | .calendar error => error.message

theorem isLine_message (error : Error) : Text.IsLine error.message := by
  cases error with
  | codePoint number =>
      unfold message
      dsimp only
      split <;> decide
  | integer base text =>
      have shown : Text.IsLine (text.quoted.take shownLength) :=
        fun inside => Text.isLine_quoted text (List.mem_of_mem_take inside)
      simp only [message, Text.isLine_append, Text.isLine_ofNat, shown, and_true]
      decide
  | float text =>
      simp only [message, Text.isLine_append, Text.isLine_quoted, and_true]
      decide
  | bool text => exact Text.isLine_quoted text
  | calendar error => exact error.isLine_message
  | _ => decide

end Error

end Yaml

end QueryOptions
