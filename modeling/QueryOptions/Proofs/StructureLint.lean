import QueryOptions.Lint.Structure
import QueryOptions.Proofs.Loading

namespace QueryOptions

/-! The structure linter takes the steps of loading one by one. Where loading gives a catalog, so
does linting; where loading ends with an error, linting notes what the error says. -/

namespace LoadError

/-- What linting notes, in order, where loading ends with the error. -/
def lintMessages (error : LoadError) : List Text :=
  match error with
  | .notAMapping _ => ["Catalog root must be a mapping"]
  | .layout error => ["Schema file not found: " ++ error.message]
  | .shape _ issues => issues.map issueLine
  | error =>
      if error.stage = .reading then ["Failed to load YAML file: " ++ error.message]
      else [error.message]

theorem lintMessages_of_reading {error : LoadError} (early : error.stage = .reading) :
    error.lintMessages = ["Failed to load YAML file: " ++ error.message] := by
  cases error <;> simp_all [stage, lintMessages]

theorem lintMessages_eq_message {error : LoadError}
    (late : error.stage = .version ∨ error.stage = .operations) :
    error.lintMessages = [error.message] := by
  cases error <;> simp_all [stage, lintMessages]

end LoadError

/-- The messages of the errors among findings, in order. -/
def Finding.errorMessages (findings : List Finding) : List Text :=
  (findings.filter isError).map message

namespace StructureLint

open Finding (errorMessages)

@[simp] theorem errorMessages_append (findings more : List Finding) :
    errorMessages (findings ++ more) = errorMessages findings ++ errorMessages more := by
  simp [errorMessages]

@[simp] theorem errorMessages_error (message : Text) :
    errorMessages [.plain .error message] = [message] := rfl

@[simp] theorem errorMessages_noticed (notice : Option VersionNotice) (location : SourceLocation) :
    errorMessages (notice.toList.map fun notice => .located .warning location notice.message) =
      [] := by
  cases notice <;> rfl

@[simp] theorem errorMessages_issues (issues : List LocatedIssue) :
    errorMessages (issues.map fun issue => .located .error issue.location issue.message) =
      issues.map LoadError.issueLine := by
  induction issues with
  | nil => rfl
  | cons issue rest ih => exact congrArg (List.cons (LoadError.issueLine issue)) ih

@[simp] theorem errorMessages_nameFindings (document : CatalogDocument) (file : Path)
    (catalog : Catalog) : errorMessages (nameFindings document file catalog) = [] := by
  unfold nameFindings
  dsimp only
  split <;> rfl

/-- What linting comes to where loading comes to the given end. -/
inductive Outcome.Follows (outcome : Outcome) : Except LoadError Catalog → Prop
  | built {catalog : Catalog} (handed : outcome.catalog = .ok (some catalog))
      (faultless : errorMessages outcome.findings = []) : Follows outcome (.ok catalog)
  | stopped {error : LoadError} (ended : outcome.catalog = .ok none)
      (noted : errorMessages outcome.findings = error.lintMessages)
      (faulty : error.lintMessages ≠ []) : Follows outcome (.error error)
  | failed {error : LoadError} (passed : outcome.catalog = .error error)
      (unexpected : error.isExpected = false) : Follows outcome (.error error)

variable {document : CatalogDocument} {entries : List (Value × Value)} {earlier : List Finding}

theorem follows_buildFindings (clean : errorMessages earlier = []) :
    (buildFindings document entries earlier).Follows
      ((document.operationSource entries).schemas.map (document.assemble entries)) := by
  unfold buildFindings OperationSource.schemas
  dsimp only
  cases run : (document.operationSource entries).buildAll with
  | ok built => exact .built rfl clean
  | error failure =>
      have late : failure.error.stage = .operations := OperationSource.stage_buildAll run
      have messages := LoadError.lintMessages_eq_message (.inr late)
      dsimp only
      split
      · refine .stopped rfl ?_ ?_
        · simp [clean, messages]
        · simp [messages]
      · rename_i unexpected
        exact .failed rfl (Bool.not_eq_true _ ▸ unexpected)

theorem follows_ofDocument (document : CatalogDocument) (file : Path) :
    (ofDocument document file).Follows document.load := by
  unfold ofDocument CatalogDocument.load
  cases document.value with
  | map entries =>
      dsimp only
      cases (CatalogDocument.checkVersion entries).error with
      | some error => exact .stopped rfl rfl (List.cons_ne_nil _ _)
      | none =>
          dsimp only
          cases document.shapeIssues (CatalogDocument.checkVersion entries) with
          | error error =>
              cases error with
              | notFound version resolved =>
                  refine .stopped rfl ?_ (List.cons_ne_nil _ _)
                  dsimp only [Outcome.stop]
                  rw [errorMessages_append, errorMessages_noticed]
                  rfl
              | nameTooLong file => exact .failed rfl rfl
          | ok issues =>
              cases issues with
              | nil =>
                  refine follows_buildFindings ?_
                  rw [errorMessages_append, errorMessages_noticed, errorMessages_nameFindings]
                  rfl
              | cons issue rest =>
                  refine .stopped rfl ?_ (List.cons_ne_nil _ _)
                  dsimp only [Outcome.stop]
                  rw [errorMessages_append, errorMessages_noticed, errorMessages_issues]
                  rfl
  | _ => exact .stopped rfl rfl (List.cons_ne_nil _ _)

theorem follows_ofReading {linter loader : DocumentReader} {system : FileSystem}
    (linting : linter.Faithful system) (loading : loader.Faithful system) (file : Path) :
    (ofReading (linter.readDocument system file).1 file).Follows
      (loader.loadCatalog system file).1 := by
  rw [(linting.readDocument file).1, loading.loadCatalog file]
  cases read : system.document file with
  | ok document => exact follows_ofDocument document file
  | error error =>
      have messages := LoadError.lintMessages_of_reading (FileSystem.stage_document read)
      unfold ofReading
      dsimp only
      split
      · refine .stopped rfl ?_ ?_
        · rw [messages]
          rfl
        · simp [messages]
      · rename_i unexpected
        exact .failed rfl (Bool.not_eq_true _ ▸ unexpected)

namespace Outcome.Follows

variable {outcome : Outcome} {loaded : Except LoadError Catalog} {error : LoadError}
  {catalog : Catalog}

theorem handed_iff (follows : outcome.Follows loaded) :
    outcome.catalog = .ok (some catalog) ∧ errorMessages outcome.findings = [] ↔
      loaded = .ok catalog := by
  cases follows with
  | built handed faultless => simp [handed, faultless]
  | stopped ended => simp [ended]
  | failed passed => simp [passed]

theorem noted (follows : outcome.Follows (.error error)) (expected : error.isExpected = true) :
    outcome.catalog = .ok none ∧ errorMessages outcome.findings = error.lintMessages := by
  cases follows with
  | stopped ended noted => exact ⟨ended, noted⟩
  | failed _ unexpected =>
      rw [expected] at unexpected
      contradiction

end Outcome.Follows

theorem file_of_shape {loader : DocumentReader} {system : FileSystem} {file : Path}
    {given : Option Path} {issues : List LocatedIssue} (loading : loader.Faithful system)
    (ended : (loader.loadCatalog system file).1 = .error (.shape given issues)) :
    given = some file := by
  rw [loading.loadCatalog file] at ended
  cases read : system.document file with
  | error error =>
      have early := FileSystem.stage_document read
      rw [read] at ended
      cases ended
      cases early
  | ok document =>
      have known := FileSystem.file_of_document read
      rw [read] at ended
      cases CatalogDocument.ends_of_load ended with
      | shape => exact known
      | operations _ _ _ failed =>
          have late := OperationSource.stage_schemas failed
          cases late

theorem message_shape (file : Path) (issues : List LocatedIssue) :
    (LoadError.shape (some file) issues).message =
      "Catalog structure validation failed in " ++ file.toText ++ ":\n" ++
        Text.join "\n" ((issues.map LoadError.issueLine).map fun line => "  - " ++ line) := by
  have heading : Text.ofString "Catalog structure validation failed in " =
      Text.ofString "Catalog structure validation failed" ++ Text.ofString " in " := by decide
  rw [heading, List.append_assoc (Text.ofString _) (Text.ofString _), List.map_map]
  rfl

/-- A catalog is handed on just where loading gives that catalog. Where loading ends at the version
or, with an error that is expected, at an operation, its message is the only error of linting; where
it ends at the shape, its message lists the errors of linting line by line. -/
theorem agrees_with_loading {linter loader : DocumentReader} {system : FileSystem}
    (linting : linter.Faithful system) (loading : loader.Faithful system) (file : Path) :
    let linted := ofReading (linter.readDocument system file).1 file
    let loaded := (loader.loadCatalog system file).1
    (∀ catalog, linted.catalog = .ok (some catalog) ∧ errorMessages linted.findings = [] ↔
      loaded = .ok catalog) ∧
    (∀ error, loaded = .error error →
      error.stage = .version ∨ error.stage = .operations ∧ error.isExpected = true →
      linted.catalog = .ok none ∧ errorMessages linted.findings = [error.message]) ∧
    ∀ given issues, loaded = .error (.shape given issues) →
      linted.catalog = .ok none ∧
      errorMessages linted.findings = issues.map LoadError.issueLine ∧
      (LoadError.shape given issues).message =
        "Catalog structure validation failed in " ++ file.toText ++ ":\n" ++
          Text.join "\n" ((errorMessages linted.findings).map fun line => "  - " ++ line) := by
  intro linted loaded
  have follows : linted.Follows loaded := follows_ofReading linting loading file
  refine ⟨fun catalog => follows.handed_iff, fun error ended late => ?_,
    fun given issues ended => ?_⟩
  · rw [ended] at follows
    have expected : error.isExpected = true := by
      rcases late with version | ⟨-, expected⟩
      · exact LoadError.isExpected_of_version version
      · exact expected
    obtain ⟨none, noted⟩ := follows.noted expected
    have messages := LoadError.lintMessages_eq_message (late.imp_right And.left)
    exact ⟨none, noted.trans messages⟩
  · have fromFile : given = some file := file_of_shape loading ended
    rw [ended] at follows
    obtain ⟨none, noted⟩ := follows.noted rfl
    refine ⟨none, noted, ?_⟩
    rw [noted, fromFile]
    exact message_shape file issues

def searchFile : Path := .ofText "search.catalog.yaml"

def laterFile : Path := .ofText "later.catalog.yaml"

def misshapenFile : Path := .ofText "misshapen.catalog.yaml"

/-- A catalog, one of a later version, and one with a misshapen operation. -/
def searchFiles : FileSystem where
  root := .directory [
    (searchFile.name, .file (content
      "option_grammar_format: 1.0.0\nname: search\noperations:\n  Search: [Owner]\n")),
    (laterFile.name, .file (content
      "option_grammar_format: 2.0.0\nname: later\noperations: []\n")),
    (misshapenFile.name, .file (content
      "option_grammar_format: 1.0.0\nname: misshapen\noperations:\n  Search: Owner\n"))]
  current := []
where
  content (text : String) : Bytes := (Text.utf8? text).getD []

open DocumentReader (fresh)

theorem searchFiles_agree :
    (fresh true).Faithful searchFiles ∧ (fresh false).Faithful searchFiles ∧
    (∃ catalog, ((fresh false).loadCatalog searchFiles searchFile).1 = .ok catalog ∧
      (ofReading ((fresh true).readDocument searchFiles searchFile).1 searchFile).catalog =
        .ok (some catalog)) ∧
    (∃ error, ((fresh false).loadCatalog searchFiles laterFile).1 = .error error ∧
      error.stage = .version ∧
      errorMessages (ofReading ((fresh true).readDocument searchFiles laterFile).1
        laterFile).findings = [error.message]) ∧
    ∃ given issues,
      ((fresh false).loadCatalog searchFiles misshapenFile).1 = .error (.shape given issues) ∧
      errorMessages (ofReading ((fresh true).readDocument searchFiles misshapenFile).1
        misshapenFile).findings = issues.map LoadError.issueLine := by
  have linting := DocumentReader.faithful_fresh true searchFiles
  have loading := DocumentReader.faithful_fresh false searchFiles
  have built : LoadStage.last? ((fresh false).loadCatalog searchFiles searchFile).1 = none := by
    decide +kernel
  have early : LoadStage.last? ((fresh false).loadCatalog searchFiles laterFile).1 =
      some .version := by decide +kernel
  have misshapen : LoadStage.last? ((fresh false).loadCatalog searchFiles misshapenFile).1 =
      some .shape := by decide +kernel
  refine ⟨linting, loading, ?_, ?_, ?_⟩
  · obtain ⟨catalog, loaded⟩ := LoadStage.exists_catalog built
    have agrees := agrees_with_loading linting loading searchFile
    exact ⟨catalog, loaded, ((agrees.1 catalog).mpr loaded).1⟩
  · obtain ⟨error, loaded, version⟩ := LoadStage.exists_error early
    have agrees := agrees_with_loading linting loading laterFile
    exact ⟨error, loaded, version, (agrees.2.1 error loaded (.inl version)).2⟩
  · obtain ⟨error, loaded, shape⟩ := LoadStage.exists_error misshapen
    obtain ⟨given, issues, rfl⟩ := LoadError.eq_shape_of_stage shape
    have agrees := agrees_with_loading linting loading misshapenFile
    exact ⟨given, issues, loaded, (agrees.2.2 given issues loaded).2.1⟩

end StructureLint

end QueryOptions
