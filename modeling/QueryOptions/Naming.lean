import QueryOptions.Text.Digit
import QueryOptions.Text.UpperCase
import QueryOptions.Value.Basic

/-!
Names. The wire name of an option is what the remote service calls it, its binding name what
callers write: the words of the wire name in lower case with underscores between them. Two lexical
classes, upper camel case and snake case, say how names should look.
-/

namespace QueryOptions.Naming

/-- Wire names whose words are not told apart by the rule, with their established binding names. -/
def establishedNames : List (Text × Text) :=
  [("ETag", "etag"), ("s3Bucket", "s3_bucket"), ("s3Key", "s3_key"),
    ("Ec2KeyName", "ec2_key_name"), ("Ec2SubnetId", "ec2_subnet_id"),
    ("Ec2VolumeId", "ec2_volume_id"), ("Ec2InstanceId", "ec2_instance_id"),
    ("ElastiCache", "elasticache"), ("NotificationARNs", "notification_arns")]

/-- What follows the last colon of the first line; the whole text if that line has none. -/
def withoutNamespace (name : Text) : Text :=
  let line := name.takeWhile (· ≠ '\n'.toNat)
  match Text.splitLast? ':' line with
  | some (_, local_) => local_ ++ name.drop line.length
  | none => name

private def isAcronymPart (point : CodePoint) : Bool := point.isAsciiUpper || point.isAsciiDigit

/-- Puts an underscore before a capital that follows an acronym and begins a lower-case word. -/
def separateAcronyms (afterAcronymPart : Bool) : Text → Text
  | [] => []
  | point :: rest =>
      let beginsWord :=
        match rest with
        | next :: _ => next.isAsciiLower
        | [] => false
      let tail := separateAcronyms (isAcronymPart point) rest
      if afterAcronymPart && point.isAsciiUpper && beginsWord then '_' :: point :: tail
      else point :: tail

theorem separateAcronyms_cons (afterAcronymPart : Bool) (point : CodePoint) (rest : Text) :
    separateAcronyms afterAcronymPart (point :: rest) =
      (if afterAcronymPart && point.isAsciiUpper && rest.head?.any CodePoint.isAsciiLower then
        ['_'.toNat] else []) ++
      point :: separateAcronyms (point.isAsciiUpper || point.isAsciiDigit) rest := by
  cases rest with
  | nil => simp [separateAcronyms]
  | cons next rest =>
      rw [separateAcronyms, isAcronymPart, List.head?_cons, Option.any_some]
      split <;> rfl

/-- How far a word has been read. -/
inductive Stretch where
  | outside
  | lower
  | digits
  | capitals
  | capitalized
deriving DecidableEq, Repr

namespace Stretch

/-- The stretch a character begins outside of a word. -/
def start (point : CodePoint) : Stretch :=
  if point.isAsciiLower then .lower
  else if point.isDigit then .digits
  else if point.isAsciiUpper then .capitals
  else .outside

/-- The stretch after a character that belongs to the word being read, if it does. -/
def advance? (stretch : Stretch) (point : CodePoint) : Option Stretch :=
  match stretch with
  | .outside => none
  | .lower => if point.isAsciiLower then some .lower else none
  | .digits => if point.isDigit then some .digits else none
  | .capitals =>
      if point.isAsciiUpper || point.isAsciiDigit then some .capitals
      else if point.isAsciiLower then some .capitalized
      else none
  | .capitalized => if point.isAsciiLower then some .capitalized else none

end Stretch

/-- The rest of the word being read, and the words that follow it. -/
def wordsFrom (stretch : Stretch) : Text → Text × List Text
  | [] => ([], [])
  | point :: rest =>
      match stretch.advance? point with
      | some next =>
          let (word, words) := wordsFrom next rest
          (point :: word, words)
      | none =>
          let next := Stretch.start point
          let (word, words) := wordsFrom next rest
          ([], if next = .outside then words else (point :: word) :: words)

/-- Words: runs of lower-case letters, runs of digits, and capitals and digits with the lower-case
letters after them. All other characters only separate. -/
def words (name : Text) : List Text := (wordsFrom .outside name).2

def bindingName (wireName : Text) : Text :=
  match establishedNames.lookup wireName with
  | some name => name
  | none =>
      (Text.join "_" (words (separateAcronyms false (withoutNamespace wireName)))).asciiLower

def isSeparator (point : CodePoint) : Bool := point = '-'.toNat || point = '_'.toNat

/-- Drops a hyphen or underscore before a letter and makes the letter a capital. -/
def joinCapitalized : Text → Text
  | [] => []
  | [point] => [point]
  | point :: next :: rest =>
      if isSeparator point && next.isAsciiLetter then
        CodePoint.asciiUpper next :: joinCapitalized rest
      else point :: joinCapitalized (next :: rest)

/-- The registered spelling of a descriptor's name: the first character in upper case, and the
words after hyphens and underscores joined with a capital each. -/
def descriptorKey : Text → Text
  | [] => []
  | point :: rest => joinCapitalized (point.upperCase ++ rest)

/-- The text without a line feed at its very end. -/
def withoutFinalLineFeed (text : Text) : Text :=
  if text.getLast? = some '\n'.toNat then text.dropLast else text

/-- A capital followed by letters and digits of ASCII; one line feed may end the text. -/
def isPascalCase (name : Text) : Bool :=
  match withoutFinalLineFeed name with
  | [] => false
  | point :: rest => point.isAsciiUpper && rest.all CodePoint.isAsciiAlphanumeric

/-- A lower-case letter followed by lower-case letters, digits and underscores of ASCII; one line
feed may end the text. -/
def isSnakeCase (name : Text) : Bool :=
  match withoutFinalLineFeed name with
  | [] => false
  | point :: rest =>
      point.isAsciiLower &&
        rest.all fun next => next.isAsciiLower || next.isAsciiDigit || next = '_'.toNat

end QueryOptions.Naming

namespace QueryOptions.Value

def isPascalCase (value : Value) : Bool := value.text?.any Naming.isPascalCase

def isSnakeCase (value : Value) : Bool := value.text?.any Naming.isSnakeCase

end QueryOptions.Value
