import QueryOptions.Lint.Report
import QueryOptions.Text.Digit

/-!
Arguments of the command line: paths, and options that choose the format of the report or ask for
help. Long options may be shortened as long as one is meant. All paths stand side by side; after a
double dash everything is a path. `Arguments.ofTexts` reads the whole list.
-/

namespace QueryOptions

structure Arguments where
  paths : List Text
  format : ReportFormat
deriving DecidableEq, Repr

/-- Why there is nothing to run. -/
inductive ArgumentsError where
  | helpAsked
  | misused
deriving DecidableEq, Repr

namespace Arguments

inductive OptionName where
  | help
  | format
deriving DecidableEq, Repr

def helpOption : Text := "--help"

def formatOption : Text := "--format"

def longOptions : List (Text × OptionName) := [(helpOption, .help), (formatOption, .format)]

/-- One argument by its form. An option may be given its value after an equals sign. -/
inductive Item where
  | path (text : Text)
  | separator
  | option (name : OptionName) (given : Option Text)
  | unknown
deriving DecidableEq, Repr

/-- The text before and after the first equals sign. -/
def splitAtEquals (text : Text) : Text × Option Text :=
  match text.dropWhile (· ≠ '='.toNat) with
  | [] => (text, none)
  | _ :: value => (text.takeWhile (· ≠ '='.toNat), some value)

/-- A dash before digits, of which a point may stand before the last ones. -/
def isNegativeNumber (text : Text) : Bool :=
  let text := if text.getLast? = some '\n'.toNat then text.dropLast else text
  match text with
  | [] => false
  | dash :: digits =>
      dash = '-'.toNat &&
        match Text.split '.' digits with
        | [whole] => !whole.isEmpty && whole.all CodePoint.isDigit
        | [whole, part] =>
            whole.all CodePoint.isDigit && !part.isEmpty && part.all CodePoint.isDigit
        | _ => false

/-- An argument that begins with a dash and names no option. Numbers and arguments with a blank
are paths. -/
def otherItem (text : Text) : Item :=
  if isNegativeNumber text || text.elem ' '.toNat then .path text else .unknown

/-- What stands against help in an argument that begins with its flag, after the flag. The flag may
be repeated, and help comes before the complaint about another letter. -/
def afterHelpFlags? (text : Text) : Option Text :=
  let rest := text.dropWhile (· = 'h'.toNat)
  if rest.head?.any fun point => point = '-'.toNat || point = '='.toNat then some rest else none

/-- The form of an argument; none if it may mean more than one option. -/
def item? (text : Text) : Option Item :=
  match text with
  | [] => some (.path text)
  | [_] => some (.path text)
  | first :: second :: rest =>
      if first ≠ '-'.toNat then some (.path text)
      else if second = '-'.toNat then
        let (name, given) := splitAtEquals text
        match longOptions.lookup text, longOptions.lookup name with
        | some option, _ => some (.option option none)
        | none, some option => some (.option option given)
        | none, none =>
            match longOptions.filter fun entry => name.isPrefixOf entry.1 with
            | [] => some (otherItem text)
            | [(_, option)] => some (.option option given)
            | _ => none
      else if second = 'h'.toNat then some (.option .help (afterHelpFlags? rest))
      else some (otherItem text)

def separatorText : Text := "--"

/-- The forms of all arguments. -/
def items? : List Text → Option (List Item)
  | [] => some []
  | text :: rest =>
      if text = separatorText then some (.separator :: rest.map .path)
      else do return (← item? text) :: (← items? rest)

/-- The paths read so far. They are closed by an option that follows them. -/
inductive Paths where
  | none
  | read (paths : List Text)
  | closed (paths : List Text)
deriving DecidableEq, Repr

namespace Paths

def toList : Paths → List Text
  | .none => []
  | .read paths => paths
  | .closed paths => paths

def add? (more : List Text) : Paths → Option Paths
  | .none => some (.read more)
  | .read paths => some (.read (paths ++ more))
  | .closed _ => Option.none

def close : Paths → Paths
  | .read paths => .closed paths
  | paths => paths

end Paths

/-- Reads arguments after some paths. The last format counts. `sound` is false when an argument
was met that has no place; all the same, asking for help comes first. -/
def read (paths : Paths) (format : ReportFormat) (sound : Bool) :
    List Item → Except ArgumentsError Arguments
  | [] => if sound then .ok ⟨paths.toList, format⟩ else .error .misused
  | .path text :: rest =>
      match paths.add? [text] with
      | some paths => read paths format sound rest
      | none => read paths format false rest
  | .separator :: rest =>
      match paths.add? [] with
      | some paths => read paths format sound rest
      | none => read paths format false rest
  | .unknown :: rest => read paths.close format false rest
  | .option .help none :: _ => .error .helpAsked
  | .option .help (some _) :: _ => .error .misused
  | .option .format (some given) :: rest =>
      match ReportFormat.ofName? given with
      | some format => read paths.close format sound rest
      | none => .error .misused
  | .option .format none :: .path given :: rest =>
      match ReportFormat.ofName? given with
      | some format => read paths.close format sound rest
      | none => .error .misused
  | .option .format none :: _ => .error .misused

/-- Reads the arguments of a command line. -/
def ofTexts (texts : List Text) : Except ArgumentsError Arguments :=
  match items? texts with
  | some items => read .none .human true items
  | none => .error .misused

end Arguments

end QueryOptions
