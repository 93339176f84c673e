import QueryOptions.Lint.Finding
import QueryOptions.Text.Json

/-!
Reports of lint results: for people to read, as a JSON document, or as the annotations that a
continuous integration service reads. In each the errors of a file come before its warnings.
-/

namespace QueryOptions

inductive ReportFormat where
  | human
  | json
  | annotations
deriving DecidableEq, Repr

namespace ReportFormat

def all : List ReportFormat := [.human, .json, .annotations]

def name : ReportFormat → Text
  | .human => "human"
  | .json => "json"
  | .annotations => "github-actions"

def ofName? (name : Text) : Option ReportFormat := all.find? fun format => format.name == name

end ReportFormat

namespace Severity

/-- The word for a severity in annotations. -/
def word : Severity → Text
  | .error => "error"
  | .warning => "warning"

def capitals : Severity → Text
  | .error => "ERROR"
  | .warning => "WARNING"

end Severity

namespace Finding

def humanLine (finding : Finding) : Text :=
  let place : Text :=
    match finding.position.line with
    | some line => ":" ++ Text.ofInt line
    | none => []
  "  " ++ finding.severity.capitals ++ place ++ ": " ++ finding.message ++ "\n"

/-- An annotation stands on a line of the file, on the first one if none is known. -/
def annotation (file : Path) (finding : Finding) : Text :=
  "::" ++ finding.severity.word ++ " file=" ++ file.toText ++ ",line=" ++
    Text.ofInt (finding.position.line.getD 1) ++ "::" ++ finding.message ++ "\n"

def toJson (finding : Finding) : Json :=
  let line : List (Text × Json) :=
    finding.position.line.toList.map fun line => ("line", .number line)
  let column : List (Text × Json) :=
    finding.position.column.toList.map fun column => ("column", .number column)
  let pointer : List (Text × Json) :=
    finding.pointer.toList.map fun pointer => ("yaml_path", .text pointer)
  .object ((Text.ofString "message", .text finding.message) :: (line ++ column ++ pointer))

end Finding

namespace LintResult

/-- The findings with the errors first. -/
def sortedFindings (result : LintResult) : List Finding := result.errors ++ result.warnings

/-- Files without findings are passed over. -/
def humanText (result : LintResult) : Text :=
  if result.findings.isEmpty then []
  else "\n" ++ result.file.toText ++ ":\n" ++ result.sortedFindings.flatMap Finding.humanLine

def annotations (result : LintResult) : Text :=
  result.sortedFindings.flatMap fun finding => finding.annotation result.file

def toJson (result : LintResult) : Json :=
  .object
    [("file", .text result.file.toText),
      ("errors", .list (result.errors.map Finding.toJson)),
      ("warnings", .list (result.warnings.map Finding.toJson))]

end LintResult

namespace Report

def toJson (results : List LintResult) : Json :=
  .object
    [("files", .number results.length),
      ("errors", .number (results.flatMap LintResult.errors).length),
      ("warnings", .number (results.flatMap LintResult.warnings).length),
      ("results", .list (results.map LintResult.toJson))]

def hasErrors (results : List LintResult) : Bool := results.any LintResult.hasErrors

/-- The report without what is said about success. -/
def body (format : ReportFormat) (results : List LintResult) : Text :=
  match format with
  | .human => results.flatMap LintResult.humanText
  | .json => (toJson results).toText ++ "\n"
  | .annotations => results.flatMap LintResult.annotations

/-- The report. Only the one for people says that there were no errors. -/
def text (format : ReportFormat) (results : List LintResult) : Text :=
  if format = .human && !hasErrors results then
    body format results ++ "Lint succeeded with no errors.\n"
  else body format results

end Report

end QueryOptions
