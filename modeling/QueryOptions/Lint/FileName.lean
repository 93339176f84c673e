import QueryOptions.Lint.Finding
import QueryOptions.Naming

/-!
Names of catalog files: the name of the catalog in snake case, and an extension of its own.
-/

namespace QueryOptions.CatalogFile

def fileExtension : Text := ".catalog.yaml"

/-- What stands before the extension in the name of a catalog file. -/
def baseName? (file : Path) : Option Text := Text.beforeEnding? fileExtension file.name

/-- Whether a file is named as a catalog file. -/
def hasExtension (file : Path) : Bool := (baseName? file).isSome

/-- The name that the catalog of a file should have. -/
def catalogName (file : Path) : Text := (baseName? file).getD file.stem

/-- What is wrong with the name of a file. -/
def findings (file : Path) : List Finding :=
  match baseName? file with
  | none =>
      [.plain .error
        ("File does not have a catalog extension. Expected '<name>" ++ fileExtension ++ "'")]
  | some name =>
      if Naming.isSnakeCase name then []
      else
        [.plain .warning
          ("Catalog file name '" ++ name ++
            "' should be in snake_case format (e.g., 'ec2', 'simple_db')")]

end QueryOptions.CatalogFile
