import QueryOptions.Proofs.FileSearch
import QueryOptions.Proofs.JsonNotation
import QueryOptions.Proofs.Linting
import QueryOptions.Proofs.SplitStreams

namespace QueryOptions

/-! What a run leaves on the standard stream. Linting logs nothing that is written there, but looking
for files does, so that a report in the JSON notation can have lines of the log in front of it. -/

/-- The loggers to which the tools write. -/
def Loggers.toolNames : List Text :=
  [DocumentReader.loggerName, StructureLint.schemaLoggerName, CatalogFile.findLoggerName]

namespace Loggers

variable {level errorLevel : LogLevel} {record : LogRecord} {records : List LogRecord}

/-- The loggers of a run for the levels that its settings give. -/
def ofLevels (level errorLevel : LogLevel) : Loggers :=
  initial.configure (some libraryName) level errorLevel

theorem within_library {name : Text} (known : name ∈ toolNames) : Within libraryName name := by
  revert name
  unfold Within
  decide +kernel

/-- A record is dropped below the level of records, and is else written to one of the streams. -/
theorem emit_ofLevels (known : record.logger ∈ toolNames) (leveled : level ≠ LogLevel.unset)
    (least : leastLevel ≤ record.level) :
    (ofLevels level errorLevel).emit record =
      if record.level < level then []
      else [⟨Logger.streamAt errorLevel record.level, record.line⟩] := by
  have within := within_library known
  have effective : (ofLevels level errorLevel).effectiveLevel record.logger = level :=
    (effectiveLevel_put within _).trans (if_neg fun both => leveled both.1)
  have emitted := emit_configure (some libraryName) level errorLevel within
  rw [← ofLevels, effective] at emitted
  rw [emitted]
  simp only [Int.not_lt.mpr least, or_false]

end Loggers

theorem Settings.configureLoggers_of_levels {settings : Settings} {level errorLevel : LogLevel}
    (set : settings.recordLevel = .ok level) (compared : settings.errorLevel = .ok errorLevel) :
    settings.configureLoggers .initial = .ok (.ofLevels level errorLevel) := by
  rw [configureLoggers, set, compared]
  rfl

/-- A record of a step of linting, which is of use only where the tools are looked into. -/
def LogRecord.IsTrace (record : LogRecord) : Prop :=
  record.logger ∈ Loggers.toolNames ∧ record.level = LogLevel.debug

section Traces

variable {record : LogRecord}

theorem DocumentReader.isTrace_of_records {reader : DocumentReader} {system : FileSystem}
    {file : Path} (logged : record ∈ reader.records system file) : record.IsTrace := by
  unfold records at logged
  split at logged
  · exact absurd logged List.not_mem_nil
  all_goals
    rw [List.mem_singleton.mp logged]
    exact ⟨List.mem_cons_self, rfl⟩

namespace StructureLint

theorem isTrace_of_buildRecords {built : BuiltOperations} (logged : record ∈ buildRecords built) :
    record.IsTrace := by
  obtain ⟨operation, -, rfl⟩ := List.mem_map.mp logged
  exact ⟨List.mem_cons_of_mem _ List.mem_cons_self, rfl⟩

theorem isTrace_of_buildFindings {document : CatalogDocument} {entries : List (Value × Value)}
    {earlier : List Finding}
    (logged : record ∈ (buildFindings document entries earlier).records) : record.IsTrace := by
  unfold buildFindings at logged
  dsimp only at logged
  split at logged
  · exact isTrace_of_buildRecords logged
  · split at logged
    · exact isTrace_of_buildRecords logged
    · exact isTrace_of_buildRecords logged

theorem isTrace_of_ofDocument {document : CatalogDocument} {file : Path}
    (logged : record ∈ (ofDocument document file).records) : record.IsTrace := by
  unfold ofDocument at logged
  split at logged
  · dsimp only at logged
    split at logged
    · exact absurd logged List.not_mem_nil
    · split at logged
      · exact absurd logged List.not_mem_nil
      · exact absurd logged List.not_mem_nil
      · exact isTrace_of_buildFindings logged
      · exact absurd logged List.not_mem_nil
  · exact absurd logged List.not_mem_nil

theorem isTrace_of_ofReading {reading : Except LoadError CatalogDocument} {file : Path}
    (logged : record ∈ (ofReading reading file).records) : record.IsTrace := by
  unfold ofReading at logged
  split at logged
  · exact isTrace_of_ofDocument logged
  · split at logged
    · exact absurd logged List.not_mem_nil
    · exact absurd logged List.not_mem_nil

end StructureLint

namespace CatalogFile

theorem isTrace_of_lint {system : FileSystem} {reader : DocumentReader} {file : Path}
    (logged : record ∈ (lint system reader file).records) : record.IsTrace := by
  have first : record ∈ reader.records system file ++
      (StructureLint.ofReading (reader.readDocument system file).1 file).records →
      record.IsTrace := fun member => (List.mem_append.mp member).elim
    DocumentReader.isTrace_of_records StructureLint.isTrace_of_ofReading
  unfold lint at logged
  dsimp only at logged
  split at logged
  · exact first logged
  · exact first logged
  · -- The file is read once more for the names in it.
    have again : ∀ later : DocumentReader, record ∈ (reader.records system file ++
        (StructureLint.ofReading (reader.readDocument system file).1 file).records) ++
          later.records system file → record.IsTrace := fun later member =>
      (List.mem_append.mp member).elim first DocumentReader.isTrace_of_records
    split at logged
    · exact again _ logged
    · exact again _ logged

theorem isTrace_of_lintFrom {system : FileSystem} {reader : DocumentReader} {files : List Path}
    (logged : record ∈ (lintFrom system reader files).2) : record.IsTrace := by
  induction files generalizing reader with
  | nil => exact absurd logged List.not_mem_nil
  | cons file rest ih =>
      rcases List.mem_append.mp logged with first | later
      · exact isTrace_of_lint first
      · exact ih later

end CatalogFile

end Traces

namespace Loggers

variable {level errorLevel : LogLevel} {records : List LogRecord}

theorem emitAll_traces (traced : LogLevel.debug < level)
    (traces : ∀ record ∈ records, record.IsTrace) :
    (ofLevels level errorLevel).emitAll records = [] := by
  refine List.flatMap_eq_nil_iff.mpr fun record logged => ?_
  obtain ⟨known, low⟩ := traces record logged
  have set : level ≠ LogLevel.unset :=
    Int.ne_of_gt (Int.lt_trans (by decide : LogLevel.unset < LogLevel.debug) traced)
  rw [emit_ofLevels known set (Int.le_of_eq low.symm), low, if_pos traced]

theorem emitAll_warnings (set : level ≠ LogLevel.unset) (written : level ≤ LogLevel.warning)
    (warnings : ∀ record ∈ records,
      record.logger = CatalogFile.findLoggerName ∧ record.level = LogLevel.warning) :
    (ofLevels level errorLevel).emitAll records =
      records.map fun record => ⟨Logger.streamAt errorLevel LogLevel.warning, record.line⟩ := by
  rw [emitAll, List.map_eq_flatMap]
  refine List.flatMap_congr fun record logged => ?_
  obtain ⟨named, given⟩ := warnings record logged
  have known : record.logger ∈ toolNames := by simp [toolNames, named]
  have least : leastLevel ≤ record.level := given ▸ by decide
  rw [emit_ofLevels known set least, given, if_neg (Int.not_lt.mpr written)]

end Loggers

namespace CommandLine

open CatalogFile (findAll lintAll Suits)

variable {system : FileSystem} {settings : Settings} {level errorLevel : LogLevel}
  {texts paths : List Text}

theorem onStream_append (stream : OutputStream) (pieces more : List Printed) :
    Printed.onStream stream (pieces ++ more) =
      Printed.onStream stream pieces ++ Printed.onStream stream more := by
  simp [Printed.onStream]

theorem onStream_map (stream used : OutputStream) (records : List LogRecord) :
    Printed.onStream stream (records.map fun record => ⟨used, record.line⟩) =
      if used = stream then records.flatMap LogRecord.line else [] := by
  split <;> simp_all [Printed.onStream, List.filter_map, List.flatMap_map, Function.comp_def]

theorem onStream_singleton (stream used : OutputStream) (text : Text) :
    Printed.onStream stream [⟨used, text⟩] = if used = stream then text else [] := by
  cases stream <;> cases used <;> simp [Printed.onStream]

theorem text_json (results : List LintResult) :
    Report.text .json results = (Report.toJson results).toText ++ "\n" := rfl

variable {arguments : Arguments} {files : List Path} {warnings : List LogRecord}

/-- Where files are found, what the search for them had logged is written, and then the report. -/
theorem printed_lint (traced : LogLevel.debug < level)
    (searched : findAll system (startPaths arguments) = (.ok files, warnings))
    (found : files ≠ []) :
    (lint system (.ofLevels level errorLevel) arguments).printed =
      (Loggers.ofLevels level errorLevel).emitAll warnings ++
        [⟨.standard, Report.text arguments.format (lintAll system files).1⟩] := by
  have silent : (Loggers.ofLevels level errorLevel).emitAll (lintAll system files).2 = [] :=
    Loggers.emitAll_traces traced fun record => CatalogFile.isTrace_of_lintFrom
  have joined : (Loggers.ofLevels level errorLevel).emitAll (warnings ++ (lintAll system files).2) =
      (Loggers.ofLevels level errorLevel).emitAll warnings := by
    rw [Loggers.emitAll, List.flatMap_append, ← Loggers.emitAll, ← Loggers.emitAll, silent,
      List.append_nil]
  unfold lint
  rw [searched]
  cases files with
  | nil => exact absurd rfl found
  | cons first rest =>
      dsimp only
      rw [joined]

theorem onStream_lint (set : settings.recordLevel = .ok level)
    (compared : settings.errorLevel = .ok errorLevel) (traced : LogLevel.debug < level)
    (written : level ≤ LogLevel.warning) (read : Arguments.ofTexts texts = .ok arguments)
    (searched : findAll system (startPaths arguments) = (.ok files, warnings))
    (found : files ≠ []) (stream : OutputStream) :
    (run system settings texts).onStream stream =
      (if Logger.streamAt errorLevel LogLevel.warning = stream then warnings.flatMap LogRecord.line
        else []) ++
      if .standard = stream then Report.text arguments.format (lintAll system files).1 else [] := by
  have leveled : level ≠ LogLevel.unset :=
    Int.ne_of_gt (Int.lt_trans (by decide : LogLevel.unset < LogLevel.debug) traced)
  have logged : ∀ record ∈ warnings,
      record.logger = CatalogFile.findLoggerName ∧ record.level = LogLevel.warning :=
    fun record => CatalogFile.warning_of_findAll searched
  rw [run, read, Settings.configureLoggers_of_levels set compared]
  dsimp only [Outcome.onStream]
  rw [printed_lint traced searched found, onStream_append,
    Loggers.emitAll_warnings leveled written logged, onStream_map, onStream_singleton]

theorem onStream_json (set : settings.recordLevel = .ok level)
    (compared : settings.errorLevel = .ok errorLevel) (traced : LogLevel.debug < level)
    (written : level ≤ LogLevel.warning) (read : Arguments.ofTexts texts = .ok ⟨paths, .json⟩)
    (searched : findAll system (startPaths ⟨paths, .json⟩) = (.ok files, warnings))
    (found : files ≠ []) (stream : OutputStream) :
    (run system settings texts).onStream stream =
      (if Logger.streamAt errorLevel LogLevel.warning = stream then warnings.flatMap LogRecord.line
        else []) ++
      if .standard = stream then (Report.toJson (lintAll system files).1).toText ++ "\n"
        else [] := by
  rw [onStream_lint set compared traced written read searched found, text_json]

theorem recordLevel_standard : Settings.standard.recordLevel = .ok LogLevel.info := by
  decide +kernel

theorem errorLevel_standard : Settings.standard.errorLevel = .ok LogLevel.error := by
  decide +kernel

/-- Under the standard settings warnings are written in front of the report, on its stream. -/
theorem onStream_standard (read : Arguments.ofTexts texts = .ok arguments)
    (searched : findAll system (startPaths arguments) = (.ok files, warnings))
    (found : files ≠ []) : (run system .standard texts).onStream .standard =
      warnings.flatMap LogRecord.line ++ Report.text arguments.format (lintAll system files).1 :=
  onStream_lint recordLevel_standard errorLevel_standard (by decide) (by decide) read searched
    found .standard

theorem not_isJson_of_warned (some : warnings ≠ [])
    (named : ∀ record ∈ warnings, record.logger = CatalogFile.findLoggerName) (after : Text) :
    ¬ Text.IsJson (warnings.flatMap LogRecord.line ++ after) := by
  intro json
  obtain ⟨record, others, rfl⟩ := List.exists_cons_of_ne_nil some
  obtain ⟨first, known, rest, begins⟩ := json.exists_start
  rw [List.flatMap_cons, LogRecord.line, named record List.mem_cons_self] at begins
  have same : 'o'.toNat = first := (List.cons.inj begins).1
  -- The name of the logger begins with a letter that begins no value.
  rw [← same] at known
  revert known
  decide

theorem isGap_lineFeed : JsonValue.IsGap "\n" := List.forall_mem_singleton.mpr (by decide)

/-- Under the standard settings a run that finds files prints a report in the JSON notation, with
nothing before it just if every path leads to a directory or to a file with the extension of catalogs.
Of every other path a line of the log stands before the report, on the same stream. -/
theorem json_of_suiting (read : Arguments.ofTexts texts = .ok ⟨paths, .json⟩)
    (searched : findAll system (startPaths ⟨paths, .json⟩) = (.ok files, warnings))
    (found : files ≠ []) :
    let report := Report.toJson (lintAll system files).1
    let outcome := run system .standard texts
    outcome.onStream .standard = warnings.flatMap LogRecord.line ++ (report.toText ++ "\n") ∧
    outcome.onStream .error = [] ∧
    (Text.IsJson (outcome.onStream .standard) ↔
      ∀ path ∈ startPaths ⟨paths, .json⟩, Suits system path) ∧
    ((∀ path ∈ startPaths ⟨paths, .json⟩, Suits system path) → report.isUnicode = true →
      JsonValue.SpellsLoosely report.denotes (outcome.onStream .standard)) := by
  intro report outcome
  have standard : outcome.onStream .standard =
      warnings.flatMap LogRecord.line ++ (report.toText ++ "\n") :=
    onStream_standard read searched found
  have error : outcome.onStream .error = [] :=
    onStream_json recordLevel_standard errorLevel_standard (by decide) (by decide) read searched
      found .error
  obtain ⟨value, spelled, denoted⟩ := report.spells_toText isGap_lineFeed
  rw [standard, ← CatalogFile.warnings_eq_nil_iff searched]
  refine ⟨rfl, error, ⟨fun json => ?_, ?_⟩, ?_⟩
  · by_contra some
    exact not_isJson_of_warned some
      (fun record logged => (CatalogFile.warning_of_findAll searched logged).1) _ json
  · rintro rfl
    exact ⟨value, spelled⟩
  · rintro rfl unicode
    rw [← denoted unicode]
    exact spelled

open StructureLint (searchFiles searchFile)

/-- The report about one catalog is all that is printed. -/
theorem searchFile_reported :
    Arguments.ofTexts ["--format", "json", "--", searchFile.toText] =
      .ok ⟨[searchFile.toText], .json⟩ ∧
    findAll searchFiles (startPaths ⟨[searchFile.toText], .json⟩) = (.ok [searchFile], []) ∧
    let report := Report.toJson (lintAll searchFiles [searchFile]).1
    JsonValue.SpellsLoosely report.denotes ((run searchFiles .standard
      ["--format", "json", "--", searchFile.toText]).onStream .standard) := by
  have read := Arguments.ofTexts_formatted .json [searchFile.toText]
  have searched : findAll searchFiles (startPaths ⟨[searchFile.toText], .json⟩) =
      (.ok [searchFile], []) := by decide +kernel
  have unicode : (Report.toJson (lintAll searchFiles [searchFile]).1).isUnicode = true := by
    decide +kernel
  have suits := (CatalogFile.warnings_eq_nil_iff searched).mp rfl
  obtain ⟨-, -, -, denoted⟩ := json_of_suiting read searched (List.cons_ne_nil _ _)
  exact ⟨read, searched, denoted suits unicode⟩

/-- A path that leads nowhere spoils the report about a catalog that is found. -/
theorem missingFile_spoils :
    let texts : List Text := ["--format", "json", "--", "missing", searchFile.toText]
    Arguments.ofTexts texts = .ok ⟨["missing", searchFile.toText], .json⟩ ∧
    (findAll searchFiles (startPaths ⟨["missing", searchFile.toText], .json⟩)).1 =
      .ok [searchFile] ∧
    ¬ Text.IsJson ((run searchFiles .standard texts).onStream .standard) := by
  intro texts
  have found : (findAll searchFiles (startPaths ⟨["missing", searchFile.toText], .json⟩)).1 =
      .ok [searchFile] := by decide +kernel
  have begins : ((run searchFiles .standard texts).onStream .standard).head? =
      some 'o'.toNat := by decide +kernel
  refine ⟨Arguments.ofTexts_formatted .json _, found, fun json => ?_⟩
  obtain ⟨first, known, rest, same⟩ := json.exists_start
  rw [same] at begins
  cases begins
  revert known
  decide

/-- Where warnings go to the error stream, nothing but the report is on the standard stream. -/
theorem isJson_of_errorLevel (set : settings.recordLevel = .ok level)
    (compared : settings.errorLevel = .ok errorLevel) (traced : LogLevel.debug < level)
    (written : level ≤ LogLevel.warning) (separate : errorLevel ≤ LogLevel.warning)
    (read : Arguments.ofTexts texts = .ok ⟨paths, .json⟩)
    (searched : findAll system (startPaths ⟨paths, .json⟩) = (.ok files, warnings))
    (found : files ≠ []) :
    Text.IsJson ((run system settings texts).onStream .standard) := by
  have streamed : Logger.streamAt errorLevel LogLevel.warning = .error :=
    if_pos (Int.max_le.mpr ⟨separate, by decide⟩)
  have left := onStream_json set compared traced written read searched found .standard
  rw [streamed] at left
  obtain ⟨value, spelled, -⟩ :=
    (Report.toJson (lintAll system files).1).spells_toText isGap_lineFeed
  exact ⟨value, left ▸ spelled⟩

end CommandLine

end QueryOptions
