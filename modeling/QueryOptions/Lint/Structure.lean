import QueryOptions.Catalog.Reader
import QueryOptions.Lint.FileName

/-!
Linting the structure of a catalog file. The checks are those of loading; where loading would end
with an error, linting notes what it found at its place. A catalog that can be built is handed on.
-/

namespace QueryOptions.StructureLint

/-- What comes of linting a document: findings, perhaps a catalog, and what was logged. An error is
one that loading does not expect. -/
structure Outcome where
  findings : List Finding
  catalog : Except LoadError (Option Catalog)
  records : List LogRecord

namespace Outcome

/-- Linting ends here without a catalog. -/
def stop (findings : List Finding) : Outcome := ⟨findings, .ok none, []⟩

def fail (findings : List Finding) (error : LoadError) : Outcome := ⟨findings, .error error, []⟩

end Outcome

def schemaLoggerName : Text := "option_grammar.schema"

/-- What is logged about operations that were built. -/
def buildRecords (built : BuiltOperations) : List LogRecord :=
  built.map fun (_, operation) =>
    ⟨schemaLoggerName, LogLevel.debug,
      "Built schema with " ++ Text.ofNat operation.schema.size ++ " options (base had " ++
        Text.ofNat operation.baseSize ++ ")"⟩

/-- Whether the catalog is named after its file. -/
def nameFindings (document : CatalogDocument) (file : Path) (catalog : Catalog) : List Finding :=
  let expected := CatalogFile.catalogName file
  if catalog.name == .text expected then []
  else
    [.located .warning (document.locate "/name")
      ("Catalog name '" ++ catalog.name.shown ++ "' does not match file name '" ++ expected ++ "'")]

/-- Builds the operations of a document of the right shape. -/
def buildFindings (document : CatalogDocument) (entries : List (Value × Value))
    (earlier : List Finding) : Outcome :=
  let source := document.operationSource entries
  match source.buildAll with
  | .ok built =>
      ⟨earlier, .ok (some (document.assemble entries (source.inDeclaredOrder built))),
        buildRecords built⟩
  | .error ⟨error, built⟩ =>
      if error.isExpected then
        ⟨earlier ++ [.plain .error error.message], .ok none, buildRecords built⟩
      else ⟨earlier, .error error, buildRecords built⟩

/-- Lints a document of a file. -/
def ofDocument (document : CatalogDocument) (file : Path) : Outcome :=
  match document.value with
  | .map entries =>
      let check := CatalogDocument.checkVersion entries
      match check.error with
      | some error =>
          .stop [.located .error document.versionLocation error.message]
      | none =>
          let noticed : List Finding := check.notice.toList.map fun notice =>
            .located .warning document.versionLocation notice.message
          match document.shapeIssues check with
          | .error (.notFound version resolved) =>
              let message := (LayoutError.notFound version resolved).message
              .stop (noticed ++ [.plain .error ("Schema file not found: " ++ message)])
          | .error error => .fail noticed (.layout error)
          | .ok [] =>
              let named := nameFindings document file (document.assemble entries [])
              buildFindings document entries (noticed ++ named)
          | .ok issues =>
              .stop (noticed ++ issues.map fun issue =>
                .located .error issue.location issue.message)
  | _ => .stop [.plain .error "Catalog root must be a mapping"]

/-- Lints what came of reading a file. -/
def ofReading (reading : Except LoadError CatalogDocument) (file : Path) : Outcome :=
  match reading with
  | .ok document => ofDocument document file
  | .error error =>
      if error.isExpected then
        .stop [.plain .error ("Failed to load YAML file: " ++ error.message)]
      else .fail [] error

end QueryOptions.StructureLint
