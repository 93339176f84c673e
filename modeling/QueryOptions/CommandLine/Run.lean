import QueryOptions.CommandLine.Arguments
import QueryOptions.Lint.Files
import QueryOptions.Settings

/-!
A run of the command line: the catalog files that the arguments stand for are linted and reported.
It succeeds unless there is nothing to lint or there are errors. It ends early where the loggers
cannot be set up or a path cannot be looked up.
-/

namespace QueryOptions.CommandLine

/-- Why a run ends before there is anything to report. -/
inductive RunError where
  | settings (error : SettingsError)
  | search (error : NameTooLong)
deriving DecidableEq, Repr

namespace RunError

def typeName : RunError → Text
  | .settings error => error.typeName
  | .search _ => "OSError"

def message : RunError → Text
  | .settings error => error.message
  | .search error => error.message

end RunError

/-- What a run leaves: the exit code, what was written, in order, and the error that ended it, if
there is one. -/
structure Outcome where
  exit : Nat
  printed : List Printed
  error : Option RunError
deriving DecidableEq, Repr

namespace Outcome

def onStream (outcome : Outcome) (stream : OutputStream) : Text :=
  Printed.onStream stream outcome.printed

end Outcome

def usage : Text :=
  "usage: lint [-h] [--format \x7bhuman,json,github-actions\x7d] [paths ...]\n"

def help : Text :=
  usage ++ "\nLint option catalog YAML files\n\n" ++
    "paths     File paths or directories to lint (default: current directory)\n" ++
    "--format  Output format (default: human)\n"

/-- The record about paths below which there is nothing to lint. -/
def nothingFound : LogRecord :=
  ⟨CatalogFile.findLoggerName, LogLevel.error, "No option catalog files found."⟩

/-- The paths to look at: those given, or the current directory. -/
def startPaths (arguments : Arguments) : List Path :=
  match arguments.paths with
  | [] => [.ofText "."]
  | paths => paths.map Path.ofText

/-- Lints and reports. -/
def lint (system : FileSystem) (loggers : Loggers) (arguments : Arguments) : Outcome :=
  match CatalogFile.findAll system (startPaths arguments) with
  | (.error error, records) => ⟨1, loggers.emitAll records, some (.search error)⟩
  | (.ok [], records) => ⟨1, loggers.emitAll (records ++ [nothingFound]), none⟩
  | (.ok files, found) =>
      let (results, records) := CatalogFile.lintAll system files
      { exit := if Report.hasErrors results then 1 else 0
        printed := loggers.emitAll (found ++ records) ++
          [⟨.standard, Report.text arguments.format results⟩]
        error := none }

/-- Runs the command line. -/
def run (system : FileSystem) (settings : Settings) (arguments : List Text) : Outcome :=
  match Arguments.ofTexts arguments with
  | .error .helpAsked => ⟨0, [⟨.standard, help⟩], none⟩
  | .error .misused => ⟨2, [⟨.error, usage⟩], none⟩
  | .ok arguments =>
      match settings.configureLoggers .initial with
      | .error error => ⟨1, [], some (.settings error)⟩
      | .ok loggers => lint system loggers arguments

end QueryOptions.CommandLine
