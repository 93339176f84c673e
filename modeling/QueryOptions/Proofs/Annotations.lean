import QueryOptions.Proofs.FindingLines
import QueryOptions.Proofs.Reporting

namespace QueryOptions

/-! Reports as annotations. Every finding is annotated by a text that a line feed ends, and nothing in
that text is escaped: it is one line just if neither the path nor the message has a line feed. -/

namespace Text

/-- Texts one after the other, each ended by a line feed. -/
def ended (lines : List Text) : Text := lines.flatMap fun line => line ++ ['\n'.toNat]

theorem ended_append (lines more : List Text) : ended (lines ++ more) = ended lines ++ ended more :=
  List.flatMap_append

theorem split_ended {lines : List Text} (each : ∀ line ∈ lines, IsLine line) :
    split '\n' (ended lines) = lines ++ [[]] := by
  induction lines with
  | nil => rfl
  | cons line rest ih =>
      obtain ⟨here, later⟩ := List.forall_mem_cons.mp each
      rw [ended, List.flatMap_cons, List.append_assoc, List.singleton_append, split_append here,
        ← ended, ih later, List.cons_append]

theorem length_split (separator : CodePoint) (text : Text) :
    (split separator text).length = text.count separator + 1 := by
  induction text with
  | nil => rfl
  | cons point rest ih =>
      unfold split
      split
      · rename_i same
        rw [List.length_cons, ih, same, List.count_cons_self]
      · rename_i other
        rw [List.count_cons_of_ne other, ← ih]
        split
        · rename_i none
          exact absurd none (split_ne_nil separator rest)
        · rename_i read
          rw [read]
          rfl

/-- There are just as many lines as texts if each of these is one line, and more otherwise. -/
theorem length_split_ended_iff {lines : List Text} :
    (split '\n' (ended lines)).length = lines.length + 1 ↔ ∀ line ∈ lines, IsLine line := by
  have counted : (ended lines).count '\n'.toNat =
      lines.length + (lines.map (List.count '\n'.toNat)).sum := by
    induction lines with
    | nil => rfl
    | cons line rest ih =>
        rw [ended, List.flatMap_cons, ← ended, List.count_append, List.count_append, ih,
          List.count_singleton_self, List.length_cons, List.map_cons, List.sum_cons]
        omega
  have none : (lines.map (List.count '\n'.toNat)).sum = 0 ↔ ∀ line ∈ lines, IsLine line := by
    simp only [List.sum_eq_zero_iff_forall_eq_nat, List.forall_mem_map, List.count_eq_zero, IsLine]
  rw [length_split, counted, ← none]
  omega

end Text

namespace Finding

/-- What stands in an annotation after the path. -/
def placed (finding : Finding) : Text :=
  ",line=" ++ Text.ofInt (finding.position.line.getD 1) ++ "::" ++ finding.message

theorem isLine_placed_iff {finding : Finding} : Text.IsLine finding.placed ↔ finding.IsLine := by
  have before : Text.IsLine ",line=" := by decide
  have between : Text.IsLine "::" := by decide
  simp only [placed, Text.isLine_append, Text.isLine_ofInt, before, between, true_and, IsLine]

end Finding

namespace LintResult

variable {result : LintResult}

/-- The annotations of a file, without the line feeds that end them: errors first. -/
def annotationLines (result : LintResult) : List Text :=
  result.errors.map (fun finding => "::error file=" ++ result.file.toText ++ finding.placed) ++
    result.warnings.map fun finding => "::warning file=" ++ result.file.toText ++ finding.placed

theorem annotations_eq (result : LintResult) :
    result.annotations = Text.ended result.annotationLines := by
  have each (severity : Severity) {opening : Text} (findings : List Finding)
      (graded : ∀ finding ∈ findings, finding.severity = severity)
      (opens : "::" ++ severity.word ++ " file=" = opening) :
      findings.flatMap (Finding.annotation result.file) = Text.ended (findings.map fun finding =>
        opening ++ result.file.toText ++ finding.placed) := by
    rw [Text.ended, List.flatMap_map]
    refine List.flatMap_congr fun finding inside => ?_
    have feed : (['\n'.toNat] : Text) = Text.ofString "\n" := by decide
    rw [Finding.annotation, graded finding inside, ← opens, Finding.placed, feed]
    simp only [List.append_assoc]
  have errors := each .error result.errors
    (fun _ inside => of_decide_eq_true (List.mem_filter.mp inside).2) rfl
  have warnings := each .warning result.warnings
    (fun _ inside => of_decide_eq_true (List.mem_filter.mp inside).2) rfl
  rw [annotations, sortedFindings, List.flatMap_append, errors, warnings, ← Text.ended_append]
  rfl

theorem opening_of_mem {line : Text} (inside : line ∈ result.annotationLines) :
    Text.ofString "::error file=" <+: line ∨ Text.ofString "::warning file=" <+: line := by
  have begins {opening more rest : Text} (same : opening ++ more ++ rest = line) :
      opening <+: line := ⟨more ++ rest, by rw [← List.append_assoc, same]⟩
  rcases List.mem_append.mp inside with error | warning
  · obtain ⟨finding, -, same⟩ := List.mem_map.mp error
    exact .inl (begins same)
  · obtain ⟨finding, -, same⟩ := List.mem_map.mp warning
    exact .inr (begins same)

/-- Each finding is annotated once. -/
theorem sortedFindings_perm (result : LintResult) : result.sortedFindings.Perm result.findings := by
  have graded : Finding.isWarning = fun finding => !finding.isError := by
    funext ⟨severity, _, _, _⟩
    cases severity <;> rfl
  rw [sortedFindings, errors, warnings, graded]
  exact List.filter_append_perm _ _

theorem length_annotationLines (result : LintResult) :
    result.annotationLines.length = result.findings.length := by
  rw [← result.sortedFindings_perm.length_eq, annotationLines, sortedFindings, List.length_append,
    List.length_append, List.length_map, List.length_map]

theorem forall_annotationLines_iff :
    (∀ line ∈ result.annotationLines, Text.IsLine line) ↔
      ∀ finding ∈ result.findings, Text.IsLine result.file.toText ∧ finding.IsLine := by
  have error : Text.IsLine "::error file=" := by decide
  have warning : Text.IsLine "::warning file=" := by decide
  rw [annotationLines, List.forall_mem_append, List.forall_mem_map, List.forall_mem_map]
  simp only [Text.isLine_append, Finding.isLine_placed_iff, error, warning, true_and]
  rw [← List.forall_mem_append]
  exact forall_congr' fun finding => imp_congr_left result.sortedFindings_perm.mem_iff

end LintResult

open CatalogFile (lintAll findAll resultOf Lined)

namespace Report

theorem text_annotations (results : List LintResult) :
    text .annotations results = Text.ended (results.flatMap LintResult.annotationLines) := by
  change results.flatMap LintResult.annotations = _
  rw [Text.ended, List.flatMap_assoc]
  exact List.flatMap_congr fun result _ => result.annotations_eq

/-- Files are annotated in order, and of each the errors before the warnings, each with a text of its
own that names the file. The report has as many lines as there are findings just if neither the
paths nor the messages have line feeds; so it has where the linted files have none, and are not
malformed. -/
theorem annotations_of_lint (system : FileSystem) (files : List Path) :
    let results := (lintAll system files).1
    let lines := results.flatMap LintResult.annotationLines
    let report := text .annotations results
    results.map LintResult.file = files ∧
    report = Text.ended lines ∧
    (∀ line ∈ lines, Text.ofString "::error file=" <+: line ∨
      Text.ofString "::warning file=" <+: line) ∧
    lines.length = (results.flatMap LintResult.findings).length ∧
    ((Text.split '\n' report).length = lines.length + 1 ↔
      ∀ result ∈ results, ∀ finding ∈ result.findings,
        Text.IsLine result.file.toText ∧ Text.IsLine finding.message) ∧
    ((∀ file ∈ files, Lined system file) → Text.split '\n' report = lines ++ [[]]) ∧
    ∀ texts paths warnings, Arguments.ofTexts texts = .ok ⟨paths, .annotations⟩ →
      findAll system (CommandLine.startPaths ⟨paths, .annotations⟩) = (.ok files, warnings) →
        files ≠ [] → (CommandLine.run system .standard texts).onStream .standard =
          warnings.flatMap LogRecord.line ++ report := by
  intro results lines report
  have linted : results = files.map fun file => resultOf (system.document file) file :=
    CatalogFile.results_lintAll system files
  have ended : report = Text.ended lines := text_annotations results
  have each : (∀ line ∈ lines, Text.IsLine line) ↔ ∀ result ∈ results,
      ∀ finding ∈ result.findings, Text.IsLine result.file.toText ∧ finding.IsLine := by
    rw [List.forall_mem_flatMap]
    exact forall₂_congr fun _ _ => LintResult.forall_annotationLines_iff
  refine ⟨CatalogFile.files_lintAll system files, ended, ?_, ?_, ?_, ?_, ?_⟩
  · intro line inside
    obtain ⟨result, -, known⟩ := List.mem_flatMap.mp inside
    exact LintResult.opening_of_mem known
  · simp only [lines, List.length_flatMap, LintResult.length_annotationLines]
  · rw [ended, Text.length_split_ended_iff]
    exact each
  · intro single
    rw [ended, Text.split_ended (each.mpr ?_)]
    rw [linted, List.forall_mem_map]
    intro file known finding found
    rw [CatalogFile.file_resultOf]
    exact ⟨(single file known).path, (single file known).isLine_of_mem finding found⟩
  · intro texts paths warnings read searched found
    exact CommandLine.onStream_standard read searched found

open StructureLint (searchFiles searchFile laterFile misshapenFile)

/-- Of three catalogs two have an error, and no text in them has more than one line. -/
theorem searchFiles_annotated :
    Arguments.ofTexts ["--format", "github-actions", "--", "."] = .ok ⟨["."], .annotations⟩ ∧
    findAll searchFiles (CommandLine.startPaths ⟨["."], .annotations⟩) =
      (.ok [laterFile, misshapenFile, searchFile], []) ∧
    (∀ file ∈ [laterFile, misshapenFile, searchFile], Lined searchFiles file) ∧
    let printed := (CommandLine.run searchFiles .standard
      ["--format", "github-actions", "--", "."]).onStream .standard
    (Text.split '\n' printed).length = 3 := by
  have read : Arguments.ofTexts ["--format", "github-actions", "--", "."] =
      .ok ⟨["."], .annotations⟩ := Arguments.ofTexts_formatted .annotations ["."]
  have searched : findAll searchFiles (CommandLine.startPaths ⟨["."], .annotations⟩) =
      (.ok [laterFile, misshapenFile, searchFile], []) := by decide +kernel
  have lined : ∀ file ∈ [laterFile, misshapenFile, searchFile], Lined searchFiles file := by
    refine fun file known => CatalogFile.lined_of_read ?_ ?_
    · revert known file
      decide +kernel
    · revert known file
      decide +kernel
  have count : ((lintAll searchFiles [laterFile, misshapenFile, searchFile]).1.flatMap
      LintResult.findings).length = 2 := by decide +kernel
  obtain ⟨-, -, -, counted, -, single, printed⟩ :=
    annotations_of_lint searchFiles [laterFile, misshapenFile, searchFile]
  refine ⟨read, searched, lined, ?_⟩
  dsimp only
  rw [printed _ _ _ read searched (List.cons_ne_nil _ _), List.flatMap_nil, List.nil_append,
    single lined, List.length_append, counted, count]
  rfl

def svcFile : Path := .ofText "svc.catalog.yaml"

/-- A catalog that names an operation on two lines. -/
def svcFiles : FileSystem where
  root := .directory [(svcFile.name, .file ((Text.utf8?
    "option_grammar_format: 1.0.0\nname: svc\noperations:\n  \"Bad\\nName\": []\n").getD []))]
  current := []

/-- The one finding cites the name twice, and what follows a line feed in it is a line of its own. -/
theorem svcFiles_annotated :
    let results := (lintAll svcFiles [svcFile]).1
    let lines := Text.split '\n' (text .annotations results)
    (results.flatMap LintResult.findings).length = 1 ∧ lines.length = 4 ∧
    lines.getLast? = some [] ∧ Text.ofString "Name)" ∈ lines := by
  decide +kernel

end Report

end QueryOptions
