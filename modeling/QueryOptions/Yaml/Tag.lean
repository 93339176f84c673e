import QueryOptions.Naming
import QueryOptions.Yaml.Timestamp

/-!
Tags, and the tags that untagged plain scalars get from their form: truth values, numbers, dates
and the like. What has none of these forms is a string.
-/

namespace QueryOptions.Yaml

namespace Tag

def standard (name : Text) : Text := "tag:yaml.org,2002:" ++ name

def null : Text := standard "null"
def bool : Text := standard "bool"
def int : Text := standard "int"
def float : Text := standard "float"
def binary : Text := standard "binary"
def timestamp : Text := standard "timestamp"
def orderedMap : Text := standard "omap"
def pairs : Text := standard "pairs"
def set : Text := standard "set"
def string : Text := standard "str"
def sequence : Text := standard "seq"
def mapping : Text := standard "map"
def merge : Text := standard "merge"
def value : Text := standard "value"

end Tag

/-! ## Truth values -/

/-- The spellings of truth values in lower case. -/
def boolWords : List (Text × Bool) :=
  [("yes", true), ("no", false), ("true", true), ("false", false), ("on", true), ("off", false)]

private def capitalized (word : Text) : Text :=
  match word with
  | [] => []
  | point :: rest => CodePoint.asciiUpper point :: rest

/-- A word in lower case, in capitals, or with a capital first. -/
private def isSpelling (word text : Text) : Bool :=
  text = word || text = capitalized word || text = word.map CodePoint.asciiUpper

def isBool (text : Text) : Bool := boolWords.any fun (word, _) => isSpelling word text

def isNull (text : Text) : Bool :=
  text.isEmpty || text = Text.ofString "~" || isSpelling "null" text

/-! ## Numbers -/

private def withoutSign : Text → Text
  | [] => []
  | point :: rest => if point = '+'.toNat || point = '-'.toNat then rest else point :: rest

private def isUnderscoreOr (inClass : CodePoint → Bool) (point : CodePoint) : Bool :=
  point = '_'.toNat || inClass point

private def areDigits (text : Text) : Bool := text.all (isUnderscoreOr CodePoint.isAsciiDigit)

/-- A digit followed by digits and underscores. -/
private def beginsWithDigit : Text → Bool
  | [] => false
  | point :: rest => point.isAsciiDigit && areDigits rest

/-- One or two digits below sixty. -/
private def isSixtieth : Text → Bool
  | [unit] => unit.isAsciiDigit
  | [tens, unit] => '0'.toNat ≤ tens && tens ≤ '5'.toNat && unit.isAsciiDigit
  | _ => false

/-- Numbers to the base sixty: digits and further places below sixty after colons. -/
private def isSexagesimal (text : Text) : Bool :=
  match Text.split ':' text with
  | first :: place :: places =>
      beginsWithDigit first && first.head? ≠ some '0'.toNat && (place :: places).all isSixtieth
  | _ => false

/-- Binary, octal, decimal, hexadecimal and sexagesimal whole numbers, with underscores between the
digits. -/
def isInt (text : Text) : Bool :=
  match withoutSign text with
  | [] => false
  | point :: rest =>
      if point = '0'.toNat then
        match rest with
        | [] => true
        | mark :: digits =>
            rest.all (isUnderscoreOr fun digit => '0'.toNat ≤ digit && digit ≤ '7'.toNat) ||
              (mark = 'b'.toNat && !digits.isEmpty &&
                digits.all (isUnderscoreOr fun digit => digit = '0'.toNat || digit = '1'.toNat)) ||
              (mark = 'x'.toNat && !digits.isEmpty &&
                digits.all (isUnderscoreOr CodePoint.isHexDigit))
      else beginsWithDigit (point :: rest) || isSexagesimal (point :: rest)

/-- An exponent with its sign, or nothing. -/
private def isExponent : Text → Bool
  | [] => true
  | mark :: sign :: digits =>
      (mark = 'e'.toNat || mark = 'E'.toNat) && (sign = '+'.toNat || sign = '-'.toNat) &&
        !digits.isEmpty && digits.all CodePoint.isAsciiDigit
  | _ => false

private def isMantissaEnd (text : Text) : Bool :=
  isExponent (text.dropWhile (isUnderscoreOr CodePoint.isAsciiDigit))

/-- Splits at the first point, if there is one. -/
private def splitPoint? (text : Text) : Option (Text × Text) :=
  match text.dropWhile (· ≠ '.'.toNat) with
  | [] => none
  | _ :: after => some (text.takeWhile (· ≠ '.'.toNat), after)

private def infinityWords : List Text := [".inf", ".Inf", ".INF"]

private def notANumberWords : List Text := [".nan", ".NaN", ".NAN"]

/-- A point, a digit, and what may follow it; no sign stands before it. -/
private def isBareFraction : Text → Bool
  | point :: digit :: rest =>
      point = '.'.toNat && digit.isAsciiDigit && isMantissaEnd rest
  | _ => false

/-- Decimal fractions, which have a point, also in sexagesimal notation; infinity and no number. -/
def isFloat (text : Text) : Bool :=
  let unsigned := withoutSign text
  infinityWords.elem unsigned || notANumberWords.elem text || isBareFraction text ||
    match splitPoint? unsigned with
    | none => false
    | some (whole, fraction) =>
        (beginsWithDigit whole && isMantissaEnd fraction) ||
          match Text.split ':' whole with
          | first :: place :: places =>
              beginsWithDigit first && (place :: places).all isSixtieth && areDigits fraction
          | _ => false

/-! ## Resolution -/

/-- The tag of a plain scalar without a tag of its own. A line feed at the end is overlooked. -/
def resolvePlain (written : Text) : Text :=
  let text := Naming.withoutFinalLineFeed written
  if written.isEmpty then Tag.null
  else if text.isEmpty then Tag.string
  else if isBool text then Tag.bool
  else if isFloat text then Tag.float
  else if isInt text then Tag.int
  else if text = Text.ofString "<<" then Tag.merge
  else if isNull text then Tag.null
  else if Timestamp.isTimestamp text then Tag.timestamp
  else if text = Text.ofString "=" then Tag.value
  else Tag.string

end QueryOptions.Yaml
