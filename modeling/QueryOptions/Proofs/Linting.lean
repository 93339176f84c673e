import QueryOptions.CommandLine.Run
import QueryOptions.Proofs.NamingLint
import QueryOptions.Proofs.StructureLint

namespace QueryOptions

/-! Linting finds errors in just those files that are misnamed, cannot be loaded or hold options of
one level with one binding name, and a run of the command line tells by its exit code. -/

open NamingLint (Faultless faultless_append)

theorem LintResult.hasErrors_iff {result : LintResult} :
    result.hasErrors = true ↔ ¬ Faultless result.findings := by
  simp [hasErrors, Faultless]

theorem NamingLint.faultless_iff_errorMessages {findings : List Finding} :
    Faultless findings ↔ Finding.errorMessages findings = [] := by
  simp [Faultless, Finding.errorMessages]

theorem NamingLint.faultless_findings_iff {catalog : Catalog} {sources : Option SourceMap} :
    Faultless (findings catalog sources) ↔
      ∀ operation ∈ catalog.operations, operation.2.root.Everywhere DistinctBindings := by
  rw [findings, Faultless, List.forall_mem_flatMap]
  exact forall₂_congr fun operation _ => Schema.faultless_iff_distinctBindings

namespace CatalogFile

/-- What is wrong with a file: its name has not the extension, it cannot be loaded, or two options
of one level of its catalog share a binding name. -/
inductive Defective (system : FileSystem) (loader : DocumentReader) (file : Path) : Prop
  | misnamed (other : hasExtension file = false)
  | unloadable {error : LoadError} (ended : (loader.loadCatalog system file).1 = .error error)
  | shared {catalog : Catalog} {operation : Value × Schema} {level : List Node}
      (loaded : (loader.loadCatalog system file).1 = .ok catalog)
      (declared : operation ∈ catalog.operations) (stands : operation.2.root.HasLevel level)
      (repeated : ¬ DistinctBindings level)

theorem faultless_findings_iff {file : Path} :
    Faultless (findings file) ↔ hasExtension file = true := by
  unfold findings hasExtension
  cases baseName? file with
  | none => simp [Faultless, Finding.plain, Finding.isError]
  | some name =>
      dsimp only
      split <;> simp [Faultless, Finding.plain, Finding.isError]

variable {system : FileSystem} {loader reader : DocumentReader} {file : Path} {catalog : Catalog}

theorem defective_of_ok (loaded : (loader.loadCatalog system file).1 = .ok catalog) :
    Defective system loader file ↔ ¬ (hasExtension file = true ∧
      ∀ operation ∈ catalog.operations, operation.2.root.Everywhere DistinctBindings) := by
  constructor
  · rintro defect ⟨named, distinct⟩
    cases defect with
    | misnamed other => simp [named] at other
    | unloadable ended => simp [loaded] at ended
    | shared found declared stands repeated =>
        rw [loaded] at found
        cases found
        exact repeated (distinct _ declared _ stands)
  · intro faulty
    by_contra sound
    refine faulty ⟨?_, fun operation declared level stands => ?_⟩
    · by_contra other
      exact sound (.misnamed (Bool.not_eq_true _ ▸ other))
    · by_contra repeated
      exact sound (.shared loaded declared stands repeated)

/-! The results of a file by what linting its structure comes to. -/

theorem hasErrors_built_iff {structural : List Finding} {sources : Option SourceMap}
    (loaded : (loader.loadCatalog system file).1 = .ok catalog)
    (clean : Finding.errorMessages structural = []) :
    (LintResult.mk file (findings file ++ structural ++
      NamingLint.findings catalog sources)).hasErrors = true ↔ Defective system loader file := by
  have faultless : Faultless structural := NamingLint.faultless_iff_errorMessages.mpr clean
  rw [LintResult.hasErrors_iff, defective_of_ok loaded, not_iff_not]
  simp only [faultless_append, faultless, and_true, faultless_findings_iff,
    NamingLint.faultless_findings_iff]

theorem hasErrors_of_stopped {known structural : List Finding}
    (faulty : Finding.errorMessages structural ≠ []) :
    (LintResult.mk file (known ++ structural)).hasErrors = true := by
  rw [LintResult.hasErrors_iff, faultless_append, not_and]
  exact fun _ faultless => faulty (NamingLint.faultless_iff_errorMessages.mp faultless)

theorem hasErrors_of_failed {known : List Finding} (error : LoadError) :
    (LintResult.mk file (known ++ [unexpectedFinding error])).hasErrors = true :=
  List.any_eq_true.mpr ⟨unexpectedFinding error, by simp, rfl⟩

/-- Linting a file finds an error just if the file is defective, and keeps the reader faithful. -/
theorem lint_spec (linting : reader.Faithful system) (loading : loader.Faithful system)
    (file : Path) :
    (lint system reader file).result.file = file ∧
      ((lint system reader file).result.hasErrors = true ↔ Defective system loader file) ∧
      (lint system reader file).reader.Faithful system := by
  have follows := StructureLint.follows_ofReading linting loading file
  unfold lint
  cases first : reader.readDocument system file with
  | mk reading nextReader =>
      have next : nextReader.Faithful system := by
        simpa only [first] using (linting.readDocument file).2
      rw [first] at follows
      dsimp only at follows ⊢
      generalize loadedAs : (loader.loadCatalog system file).1 = loaded at follows
      cases follows with
      | built handed clean =>
          rw [handed]
          dsimp only
          cases second : nextReader.readDocument system file with
          | mk again lastReader =>
              -- The file is read once more; it still holds the document that was loaded.
              obtain ⟨readAgain, last⟩ := next.readDocument file
              obtain ⟨document, read, -⟩ := ok_of_bind (loading.loadCatalog file ▸ loadedAs)
              rw [second] at readAgain last
              obtain rfl : again = .ok document := readAgain.trans read
              exact ⟨rfl, hasErrors_built_iff loadedAs clean, last⟩
      | stopped ended noted faulty =>
          rw [ended]
          have some : Finding.errorMessages (StructureLint.ofReading reading file).findings ≠ [] := by
            rw [noted]
            exact faulty
          exact ⟨rfl, iff_of_true (hasErrors_of_stopped some) (.unloadable loadedAs), next⟩
      | failed passed =>
          rw [passed]
          exact ⟨rfl, iff_of_true (hasErrors_of_failed _) (.unloadable loadedAs), next⟩

theorem lintFrom_spec (linting : reader.Faithful system) (loading : loader.Faithful system)
    (files : List Path) :
    List.Forall₂ (fun file result => result.file = file ∧
      (result.hasErrors = true ↔ Defective system loader file)) files
      (lintFrom system reader files).1 := by
  induction files generalizing reader with
  | nil => exact .nil
  | cons file rest ih =>
      obtain ⟨named, exact, next⟩ := lint_spec linting loading file
      exact .cons ⟨named, exact⟩ (ih next)

theorem hasErrors_lintAll_iff (loading : loader.Faithful system) (files : List Path) :
    Report.hasErrors (lintAll system files).1 = false ↔
      ∀ file ∈ files, ¬ Defective system loader file := by
  have results := lintFrom_spec (DocumentReader.faithful_fresh true system) loading files
  have sound : List.Forall₂ (fun file (result : LintResult) =>
      ¬ Defective system loader file ↔ result.hasErrors = false) files (lintAll system files).1 :=
    results.imp fun file result agrees => by rw [← agrees.2, Bool.not_eq_true]
  rw [forall_mem_iff_of_forall₂ sound, Report.hasErrors, List.any_eq_false]
  simp

end CatalogFile

namespace Arguments

theorem read_paths (format : ReportFormat) (before paths : List Text) :
    read (.read before) format true (paths.map .path) = .ok ⟨before ++ paths, format⟩ := by
  induction paths generalizing before with
  | nil => simp [read, Paths.toList]
  | cons path rest ih =>
      rw [List.map_cons, read, Paths.add?]
      simp [ih]

/-- Every format can be asked for, whatever the paths are. -/
theorem ofTexts_formatted (format : ReportFormat) (paths : List Text) :
    ofTexts (formatOption :: format.name :: separatorText :: paths) = .ok ⟨paths, format⟩ := by
  have items : items? (formatOption :: format.name :: separatorText :: paths) =
      some (.option .format none :: .path format.name :: .separator :: paths.map .path) := by
    cases format <;> rfl
  have named : ReportFormat.ofName? format.name = some format := by cases format <;> rfl
  rw [ofTexts, items]
  dsimp only
  rw [read, named]
  exact read_paths format [] paths

end Arguments

/-- The loggers can be set up unless a level is asked for by the name of something else. -/
theorem Settings.exists_loggers_iff {settings : Settings} (loggers : Loggers) :
    (∃ next, settings.configureLoggers loggers = .ok next) ↔
      NoLevel.ofName? settings.logLevel.upperCase = none ∧
        NoLevel.ofName? settings.printLevel.upperCase = none := by
  unfold configureLoggers recordLevel errorLevel level
  cases NoLevel.ofName? settings.logLevel.upperCase with
  | some given => exact iff_of_false (fun ⟨_, set⟩ => nomatch set) fun both => nomatch both.1
  | none =>
      cases NoLevel.ofName? settings.printLevel.upperCase with
      | some given => exact iff_of_false (fun ⟨_, set⟩ => nomatch set) fun both => nomatch both.2
      | none => exact iff_of_true ⟨_, rfl⟩ ⟨rfl, rfl⟩

namespace CommandLine

variable {system : FileSystem} {loader : DocumentReader}

theorem exit_lint_iff (loading : loader.Faithful system) (loggers : Loggers)
    (arguments : Arguments) : (lint system loggers arguments).exit = 0 ↔ ∃ found records,
      CatalogFile.findAll system (startPaths arguments) = (.ok found, records) ∧
        found ≠ [] ∧ ∀ file ∈ found, ¬ CatalogFile.Defective system loader file := by
  unfold lint
  cases CatalogFile.findAll system (startPaths arguments) with
  | mk outcome logged =>
      cases outcome with
      | error error => simp
      | ok files =>
          cases files with
          | nil => simp
          | cons first rest =>
              have code (errors : Bool) : (if errors = true then 1 else 0) = 0 ↔ errors = false := by
                cases errors <;> simp
              dsimp only
              rw [code, CatalogFile.hasErrors_lintAll_iff loading]
              simp

theorem exit_lint_or (system : FileSystem) (loggers : Loggers) (arguments : Arguments) :
    (lint system loggers arguments).exit = 0 ∨ (lint system loggers arguments).exit = 1 := by
  unfold lint
  split
  · exact .inr rfl
  · exact .inr rfl
  · dsimp only
    split
    · exact .inr rfl
    · exact .inl rfl

/-- Each file that is linted gives one result, which has errors just if the file is defective. A run
of the command line, which may ask for each format, succeeds just if it can set up its loggers, looks
up all that it has to and finds files, none of which is defective. -/
theorem exit_of_defects {system : FileSystem} {loader : DocumentReader}
    (loading : loader.Faithful system) :
    (∀ files, List.Forall₂ (fun file result => result.file = file ∧
      (result.hasErrors = true ↔ CatalogFile.Defective system loader file)) files
      (CatalogFile.lintAll system files).1) ∧
    (∀ (format : ReportFormat) (paths : List Text), Arguments.ofTexts
      (Arguments.formatOption :: format.name :: Arguments.separatorText :: paths) =
        .ok ⟨paths, format⟩) ∧
    ∀ settings texts arguments, Arguments.ofTexts texts = .ok arguments →
      let outcome := run system settings texts
      (outcome.exit = 0 ↔ ∃ loggers found records,
        settings.configureLoggers .initial = .ok loggers ∧
        CatalogFile.findAll system (startPaths arguments) = (.ok found, records) ∧
        found ≠ [] ∧ ∀ file ∈ found, ¬ CatalogFile.Defective system loader file) ∧
      (outcome.exit = 0 ∨ outcome.exit = 1) := by
  refine ⟨CatalogFile.lintFrom_spec (DocumentReader.faithful_fresh true system) loading,
    Arguments.ofTexts_formatted, ?_⟩
  intro settings texts arguments read outcome
  cases configured : settings.configureLoggers .initial with
  | error error =>
      have ended : outcome = ⟨1, [], some (.settings error)⟩ := by
        simp only [outcome, run, read, configured]
      simp [ended]
  | ok loggers =>
      have ran : outcome = lint system loggers arguments := by
        simp only [outcome, run, read, configured]
      rw [ran]
      refine ⟨?_, exit_lint_or system loggers arguments⟩
      rw [exit_lint_iff loading]
      simp

open StructureLint (searchFiles searchFile laterFile misshapenFile)

/-- A run over the one catalog succeeds, and one over the whole directory does not. -/
theorem searchFiles_exits :
    (DocumentReader.fresh false).Faithful searchFiles ∧
    Arguments.ofTexts ["--format", "json", "--", searchFile.toText] =
      .ok ⟨[searchFile.toText], .json⟩ ∧
    (run searchFiles .standard ["--format", "json", "--", searchFile.toText]).exit = 0 ∧
    (run searchFiles .standard ["--format", "github-actions", "--", "."]).exit = 1 := by
  have loading := DocumentReader.faithful_fresh false searchFiles
  obtain ⟨results, formatted, exits⟩ := exit_of_defects loading
  have alone : Arguments.ofTexts ["--format", "json", "--", searchFile.toText] =
      .ok ⟨[searchFile.toText], .json⟩ := formatted .json [searchFile.toText]
  have all : Arguments.ofTexts ["--format", "github-actions", "--", "."] =
      .ok ⟨["."], .annotations⟩ := formatted .annotations ["."]
  have named : NoLevel.ofName? Settings.standard.logLevel.upperCase = none ∧
      NoLevel.ofName? Settings.standard.printLevel.upperCase = none := by decide +kernel
  obtain ⟨loggers, configured⟩ := (Settings.exists_loggers_iff .initial).mpr named
  have foundAlone : CatalogFile.findAll searchFiles
      (startPaths ⟨[searchFile.toText], .json⟩) = (.ok [searchFile], []) := by decide +kernel
  have foundAll : CatalogFile.findAll searchFiles (startPaths ⟨["."], .annotations⟩) =
      (.ok [laterFile, misshapenFile, searchFile], []) := by decide +kernel
  have errors : (CatalogFile.lintAll searchFiles [searchFile, laterFile]).1.map
      LintResult.hasErrors = [false, true] := by decide +kernel
  have agree := results [searchFile, laterFile]
  generalize (CatalogFile.lintAll searchFiles [searchFile, laterFile]).1 = given at agree errors
  cases agree with
  | cons first others =>
      cases others with
      | cons second others =>
          simp only [List.map_cons, List.cons.injEq] at errors
          obtain ⟨none, some, -⟩ := errors
          have sound : ¬ CatalogFile.Defective searchFiles (.fresh false) searchFile := by
            rw [← first.2, none, Bool.false_eq_true]
            exact not_false
          have defective : CatalogFile.Defective searchFiles (.fresh false) laterFile :=
            second.2.mp some
          refine ⟨loading, alone, (exits .standard _ _ alone).1.mpr
            ⟨loggers, _, _, configured, foundAlone, List.cons_ne_nil _ _,
              List.forall_mem_singleton.mpr sound⟩, ?_⟩
          obtain ⟨succeeds, ends⟩ := exits .standard _ _ all
          refine ends.resolve_left fun success => ?_
          obtain ⟨_, found, _, -, searched, -, clean⟩ := succeeds.mp success
          rw [foundAll] at searched
          cases searched
          exact clean laterFile List.mem_cons_self defective

end CommandLine

end QueryOptions
