import QueryOptions.Text.Digit
import QueryOptions.Text.Quoted

/-!
Text in the JSON notation, with one value a line and two blanks more for each level. Only printable
ASCII is written as it is.
-/

namespace QueryOptions

inductive Json where
  | number (value : Int)
  | text (content : Text)
  | list (items : List Json)
  | object (fields : List (Text × Json))

namespace Json

/-- A 16-bit unit as an escape. -/
def unitEscape (unit : Nat) : Text := "\\u" ++ Text.hexadecimal 4 unit

/-- A character within quotes. Above the 16-bit range it is written as a pair of units. -/
def escape (point : CodePoint) : Text :=
  if point = '"'.toNat then "\\\""
  else if point = '\\'.toNat then "\\\\"
  else if point = '\n'.toNat then "\\n"
  else if point = '\r'.toNat then "\\r"
  else if point = '\t'.toNat then "\\t"
  else if point = 0x08 then "\\b"
  else if point = 0x0C then "\\f"
  else if 0x20 ≤ point && point < 0x7F then [point]
  else if point < 0x10000 then unitEscape point
  else
    unitEscape (0xD800 + (point - 0x10000) / 0x400) ++
      unitEscape (0xDC00 + (point - 0x10000) % 0x400)

def quote (text : Text) : Text := "\"" ++ text.flatMap escape ++ "\""

/-- The line break before something at a level. -/
def lineBreak (level : Nat) : Text := "\n" ++ List.replicate (2 * level) ' '.toNat

mutual

/-- The notation of a value whose own line is at a level. -/
def render (level : Nat) : Json → Text
  | .number value => Text.ofInt value
  | .text content => quote content
  | .list [] => "[]"
  | .list (item :: rest) =>
      "[" ++ renderItems (level + 1) (item :: rest) ++ lineBreak level ++ "]"
  | .object [] => "\x7b\x7d"
  | .object (field :: rest) =>
      "\x7b" ++ renderFields (level + 1) (field :: rest) ++ lineBreak level ++ "\x7d"

def renderItems (level : Nat) : List Json → Text
  | [] => []
  | [item] => lineBreak level ++ item.render level
  | item :: rest => lineBreak level ++ item.render level ++ "," ++ renderItems level rest

def renderFields (level : Nat) : List (Text × Json) → Text
  | [] => []
  | [(name, value)] => lineBreak level ++ quote name ++ ": " ++ value.render level
  | (name, value) :: rest =>
      lineBreak level ++ quote name ++ ": " ++ value.render level ++ "," ++
        renderFields level rest

end

/-- The notation of a whole document. -/
def toText (json : Json) : Text := json.render 0

end Json

end QueryOptions
