import QueryOptions.Catalog.Layout
import QueryOptions.Schema.Error
import QueryOptions.Source.Location
import QueryOptions.Yaml.Error

/-!
Why a catalog cannot be loaded. Most errors lie in the file or the document and are expected; a few
arise where a value could not be read or written at all, and are not.
-/

namespace QueryOptions

/-- An issue of the shape of a document and where it stands. -/
structure LocatedIssue where
  message : Text
  location : SourceLocation

inductive LoadError where
  /-- The path of the file is too long to be looked up. -/
  | nameTooLong (file : Path)
  | missingFile (file : Path)
  | notAFile (file : Path)
  | unreadable (file : Path)
  /-- The text of a file, or a text on its own, is malformed. -/
  | malformed (file : Option Path)
  /-- A scalar of the document has no value. -/
  | scalar (error : Yaml.Error)
  | notAMapping (file : Option Path)
  | version (error : VersionError) (location : SourceLocation)
  | layout (error : LayoutError)
  | shape (file : Option Path) (issues : List LocatedIssue)
  | unknownBase (operation base : Value) (location : SourceLocation)
  /-- The operations from the first one to one that is met again, each the base of the one
  before. -/
  | circularBases (operations : List Value)
  /-- A name that is no text stands, at a place, in names that are to be joined. -/
  | unjoinable (place : Nat) (name : Value)
  | declaration (operation : Value) (error : SchemaError) (location : SourceLocation)
  | unknownOperation (operation catalog : Value) (available : List Text)
  | unhashable (part : Value)

namespace LoadError

/-- Whether the error lies in the document or its file. -/
def isExpected : LoadError → Bool
  | .nameTooLong _ => false
  | .scalar _ => false
  | .layout _ => false
  | .unjoinable _ _ => false
  | .unhashable _ => false
  | _ => true

/-- What is said about a file that is no text. -/
def unreadableDetail : Text := "the file is not readable as text"

private def inFile : Option Path → Text
  | some file => " in " ++ file.toText
  | none => []

def issueLine (issue : LocatedIssue) : Text := issue.message ++ issue.location.toText

def message : LoadError → Text
  | .nameTooLong file => (NameTooLong.mk file).message
  | .missingFile file => "Catalog file not found: " ++ file.toText
  | .notAFile file => "Path is not a file: " ++ file.toText
  | .unreadable file =>
      "Failed to read catalog file " ++ file.toText ++ ": " ++ unreadableDetail
  | .malformed (some file) =>
      "Failed to parse YAML file " ++ file.toText ++ ": " ++ Yaml.Error.malformed.message
  | .malformed none => "Failed to parse YAML content: " ++ Yaml.Error.malformed.message
  | .scalar error => error.message
  | .notAMapping file => "Catalog root must be a mapping" ++ inFile file
  | .version error location => error.message ++ location.toText
  | .layout error => error.message
  | .shape file issues =>
      "Catalog structure validation failed" ++ inFile file ++ ":\n" ++
        Text.join "\n" (issues.map fun issue => "  - " ++ issueLine issue)
  | .unknownBase operation base location =>
      "Operation '" ++ operation.shown ++ "' extends unknown operation '" ++ base.shown ++ "'" ++
        location.toText
  | .circularBases operations =>
      "Circular base reference between operations: " ++
        Text.join " -> " (operations.filterMap Value.text?)
  | .unjoinable place name =>
      "sequence item " ++ Text.ofNat place ++ ": expected str instance, " ++
        name.qualifiedTypeName ++ " found"
  | .declaration operation error location =>
      "Invalid declaration in operation '" ++ operation.shown ++ "': " ++ error.message ++
        location.toText
  | .unknownOperation operation catalog available =>
      let names := Text.join ", " available
      "Unknown operation '" ++ operation.shown ++ "' in catalog '" ++ catalog.shown ++
        "'. Available: " ++ (if names.isEmpty then Text.ofString "none" else names)
  | .unhashable part => "unhashable type: '" ++ part.qualifiedTypeName ++ "'"

/-- The first of the names that is no text, with its place. -/
private def findUnjoinable? (place : Nat) : List Value → Option (Nat × Value)
  | [] => none
  | name :: rest => if name.isText then findUnjoinable? (place + 1) rest else some (place, name)

/-- The error about joined names, or about the first one that cannot be joined. -/
def joining (names : List Value) (error : LoadError) : LoadError :=
  match findUnjoinable? 0 names with
  | some (place, name) => .unjoinable place name
  | none => error

end LoadError

end QueryOptions
