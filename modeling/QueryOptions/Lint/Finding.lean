import QueryOptions.Source.Location

/-!
What linting finds in a catalog file. Findings are kept in the order in which they are made; errors
and warnings are parts of that one list.
-/

namespace QueryOptions

inductive Severity where
  | error
  | warning
deriving DecidableEq, Repr

/-- The message says where the finding stands, as far as that is known. -/
structure Finding where
  severity : Severity
  message : Text
  position : Position
  pointer : Option Text
deriving DecidableEq, Repr

namespace Finding

/-- A finding about a file as a whole. -/
def plain (severity : Severity) (message : Text) : Finding :=
  ⟨severity, message, ⟨none, none⟩, none⟩

/-- A finding at a location. The root of a document is not pointed to. -/
def located (severity : Severity) (location : SourceLocation) (message : Text) : Finding :=
  { severity := severity
    message := message ++ location.toText
    position := location.position
    pointer := location.pointer.filter fun pointer => !pointer.isEmpty }

def isError (finding : Finding) : Bool := finding.severity = .error

def isWarning (finding : Finding) : Bool := finding.severity = .warning

end Finding

/-- The findings of one file. -/
structure LintResult where
  file : Path
  findings : List Finding
deriving DecidableEq, Repr

namespace LintResult

def errors (result : LintResult) : List Finding := result.findings.filter Finding.isError

def warnings (result : LintResult) : List Finding := result.findings.filter Finding.isWarning

def hasErrors (result : LintResult) : Bool := result.findings.any Finding.isError

end LintResult

end QueryOptions
