import QueryOptions.Lint.Naming
import QueryOptions.Lint.Structure
import QueryOptions.Sorting

/-!
Linting files and finding the files to lint. Files are linted one after the other with one reader
that caches; the main functions are `CatalogFile.lintAll` and `CatalogFile.findAll`.
-/

namespace QueryOptions.CatalogFile

/-- What linting a file comes to: the result, the reader after it and what was logged. -/
structure LintStep where
  result : LintResult
  reader : DocumentReader
  records : List LogRecord

/-- The finding about an error that loading does not expect. -/
def unexpectedFinding (error : LoadError) : Finding :=
  .plain .error ("Unexpected error during linting: " ++ error.message)

/-- Lints a file: its name, its structure and, if a catalog can be built, the names in it, for which
the file is read once more. -/
def lint (system : FileSystem) (reader : DocumentReader) (file : Path) : LintStep :=
  let (reading, nextReader) := reader.readDocument system file
  let structural := StructureLint.ofReading reading file
  let known := findings file ++ structural.findings
  let records := reader.records system file ++ structural.records
  match structural.catalog with
  | .error error => ⟨⟨file, known ++ [unexpectedFinding error]⟩, nextReader, records⟩
  | .ok none => ⟨⟨file, known⟩, nextReader, records⟩
  | .ok (some catalog) =>
      let records := records ++ nextReader.records system file
      match nextReader.readDocument system file with
      | (.ok document, lastReader) =>
          ⟨⟨file, known ++ NamingLint.findings catalog document.sources⟩, lastReader, records⟩
      | (.error error, lastReader) =>
          ⟨⟨file, known ++ [unexpectedFinding error]⟩, lastReader, records⟩

/-- Lints files in order with one reader. -/
def lintFrom (system : FileSystem) (reader : DocumentReader) :
    List Path → List LintResult × List LogRecord
  | [] => ([], [])
  | file :: rest =>
      let step := lint system reader file
      let (results, records) := lintFrom system step.reader rest
      (step.result :: results, step.records ++ records)

/-- Lints files, with a reader of their own. -/
def lintAll (system : FileSystem) (files : List Path) : List LintResult × List LogRecord :=
  lintFrom system (.fresh true) files

def findLoggerName : Text := "option_grammar.linter.run_lint"

private def warned (message : Text) : List LogRecord :=
  [⟨findLoggerName, LogLevel.warning, message⟩]

/-- The catalog files that a given path stands for: the file itself, or all that lie below a
directory; all else is warned of. Neither the path nor that of a directory below it may be too long
to be looked up. -/
def find (system : FileSystem) (path : Path) : Except NameTooLong (List Path × List LogRecord) :=
  if system.refuses path then .error ⟨path⟩
  else
    match system.entry? path with
    | none => .ok ([], warned ("Path does not exist: " ++ path.toText))
    | some (.file _) =>
        if hasExtension path then .ok ([path], [])
        else .ok ([], warned ("File does not match catalog file pattern: " ++ path.toText))
    | some .device => .ok ([], warned ("Path is neither file nor directory: " ++ path.toText))
    | some (.directory _) =>
        let below := system.below path
        match below.find? fun (inner, entry) => entry.isDirectory && inner.isLong with
        | some (inner, _) => .error ⟨inner⟩
        | none => .ok ((below.map (·.1)).filter hasExtension, [])

/-- Looks at paths one after the other. The first one that cannot be looked up ends the search; what
was logged before stays. -/
def search (system : FileSystem) : List Path → Except NameTooLong (List Path) × List LogRecord
  | [] => (.ok [], [])
  | path :: rest =>
      match find system path with
      | .error error => (.error error, [])
      | .ok (found, records) =>
          let (others, later) := search system rest
          (others.map (found ++ ·), records ++ later)

/-- The catalog files that paths stand for, each once and in order, and what was logged. -/
def findAll (system : FileSystem) (paths : List Path) :
    Except NameTooLong (List Path) × List LogRecord :=
  let (found, records) := search system paths
  (found.map fun files => Sorting.dropRepeats (Sorting.sort Path.le files), records)

end QueryOptions.CatalogFile
