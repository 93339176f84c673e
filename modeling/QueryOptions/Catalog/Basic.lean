import QueryOptions.Catalog.Operations
import QueryOptions.Catalog.Shape
import QueryOptions.Request.Params
import QueryOptions.Yaml.Document

/-!
Catalogs: documents that declare one schema for each operation of a service. Loading checks the
version, then the shape of the whole document, and then builds the operations.
-/

namespace QueryOptions

/-- The name and the version are texts as the document gives them. -/
structure Catalog where
  name : Value
  operations : List (Value × Schema)
  formatVersion : Value
  file : Option Path

namespace Catalog

def operationNames (catalog : Catalog) : List Value := catalog.operations.map (·.1)

/-- The schema of an operation. -/
def schema (catalog : Catalog) (operation : Value) : Except LoadError Schema :=
  match operation.unhashablePart? with
  | some part => .error (.unhashable part)
  | none =>
      match Entries.find? operation catalog.operations with
      | some schema => .ok schema
      | none =>
          let names := catalog.operationNames
          .error (.joining names
            (.unknownOperation operation catalog.name (names.filterMap Value.text?)))

end Catalog

/-- A document that is to be a catalog, with what is known about where it comes from. -/
structure CatalogDocument where
  value : Value
  sources : Option SourceMap
  file : Option Path

namespace CatalogDocument

def locate (document : CatalogDocument) (pointer : Text) : SourceLocation :=
  .locate document.sources (some pointer) document.file

def versionLocation (document : CatalogDocument) : SourceLocation :=
  document.locate ("/" ++ FormatVersion.field)

private def field (name : Text) (entries : List (Value × Value)) : Value :=
  (Entries.find? (.text name) entries).getD .null

def checkVersion (entries : List (Value × Value)) : VersionCheck :=
  .ofValue (field FormatVersion.field entries)

/-- The issues of the shape of the document, each with its location. -/
def shapeIssues (document : CatalogDocument) (check : VersionCheck) :
    Except LayoutError (List LocatedIssue) := do
  let _ ← Layout.load check.layoutVersion
  return (Shape.issues document.value).map fun issue =>
    ⟨issue.message, document.locate issue.pointer⟩

/-- The operations that a document of the right shape declares. -/
def operationSource (document : CatalogDocument) (entries : List (Value × Value)) :
    OperationSource :=
  let operations :=
    match field "operations" entries with
    | .map operations => operations
    | _ => []
  ⟨operations, document.sources, document.file⟩

theorem operations_of_find? {document : CatalogDocument} {entries operations : List (Value × Value)}
    (given : Entries.find? (.text "operations") entries = some (.map operations)) :
    (document.operationSource entries).operations = operations := by
  simp only [operationSource, field, given, Option.getD_some]

def assemble (document : CatalogDocument) (entries : List (Value × Value))
    (operations : List (Value × Schema)) : Catalog :=
  { name := field "name" entries
    operations := operations
    formatVersion := field FormatVersion.field entries
    file := document.file }

/-- What is said about the version of a document that is read. -/
def versionWarning? (document : CatalogDocument) : Option Text :=
  match document.value with
  | .map entries =>
      (checkVersion entries).notice.map fun notice =>
        notice.message ++ document.versionLocation.toText
  | _ => none

/-- Builds the catalog. -/
def load (document : CatalogDocument) : Except LoadError Catalog :=
  match document.value with
  | .map entries => do
      let check := checkVersion entries
      match check.error with
      | some error => throw (.version error document.versionLocation)
      | none =>
          match document.shapeIssues check with
          | .error error => throw (.layout error)
          | .ok [] =>
              let operations ← (document.operationSource entries).schemas
              return document.assemble entries operations
          | .ok issues => throw (.shape document.file issues)
  | _ => .error (.notAMapping document.file)

end CatalogDocument

namespace LoadError

/-- What a fault of a document's text means for loading it. -/
def ofYaml (file : Option Path) : Yaml.Error → LoadError
  | .malformed => .malformed file
  | error => .scalar error

end LoadError

namespace Catalog

/-- Reads the document of a text. -/
def documentOfText (text : Text) (file : Option Path) : Except LoadError CatalogDocument :=
  match Yaml.Document.ofText text with
  | .ok document => .ok ⟨document.value, some document.sources, file⟩
  | .error error => .error (.ofYaml none error)

/-- Loads a catalog from a text. -/
def ofText (text : Text) (file : Option Path) : Except LoadError Catalog := do
  (← documentOfText text file).load

end Catalog

end QueryOptions
