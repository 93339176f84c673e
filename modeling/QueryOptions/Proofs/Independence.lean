import QueryOptions.Proofs.Linting

namespace QueryOptions.CatalogFile

/-! Files are linted one by one with a reader that they share, and yet apart from each other: what is
found in a file follows from what the file holds. -/

/-- The result for a file by what came of reading it. -/
def resultOf (reading : Except LoadError CatalogDocument) (file : Path) : LintResult :=
  let structural := StructureLint.ofReading reading file
  let known := findings file ++ structural.findings
  match structural.catalog with
  | .error error => ⟨file, known ++ [unexpectedFinding error]⟩
  | .ok none => ⟨file, known⟩
  | .ok (some catalog) =>
      match reading with
      | .ok document => ⟨file, known ++ NamingLint.findings catalog document.sources⟩
      | .error error => ⟨file, known ++ [unexpectedFinding error]⟩

variable {system : FileSystem} {reader : DocumentReader}

/-- Whatever a faithful reader has kept, the result is the one of the file's document. -/
theorem result_lint (faithful : reader.Faithful system) (file : Path) :
    (lint system reader file).result = resultOf (system.document file) file := by
  obtain ⟨first, next⟩ := faithful.readDocument file
  unfold lint resultOf
  cases read : reader.readDocument system file with
  | mk reading nextReader =>
      rw [read] at first next
      obtain rfl : reading = system.document file := first
      cases handed : (StructureLint.ofReading (system.document file) file).catalog with
      | error error => simp only [handed]
      | ok catalog =>
          cases catalog with
          | none => simp only [handed]
          | some catalog =>
              -- The names are linted with what a second reading gives, which is the same document.
              have second := (next.readDocument file).1
              simp only [handed]
              cases again : nextReader.readDocument system file with
              | mk document lastReader =>
                  rw [again] at second
                  obtain rfl : document = system.document file := second
                  cases system.document file <;> rfl

theorem results_lintFrom (faithful : reader.Faithful system) (files : List Path) :
    (lintFrom system reader files).1 =
      files.map fun file => resultOf (system.document file) file := by
  induction files generalizing reader with
  | nil => rfl
  | cons file rest ih =>
      obtain ⟨-, -, next⟩ := lint_spec faithful faithful file
      rw [List.map_cons, ← result_lint faithful file, ← ih next]
      rfl

theorem results_lintAll (system : FileSystem) (files : List Path) :
    (lintAll system files).1 = files.map fun file => resultOf (system.document file) file :=
  results_lintFrom (DocumentReader.faithful_fresh true system) files

theorem file_resultOf (reading : Except LoadError CatalogDocument) (file : Path) :
    (resultOf reading file).file = file := by
  unfold resultOf
  dsimp only
  split
  · rfl
  · rfl
  · split <;> rfl

theorem files_lintAll (system : FileSystem) (files : List Path) :
    (lintAll system files).1.map LintResult.file = files := by
  rw [results_lintAll, List.map_map]
  exact (List.map_congr_left fun file _ => file_resultOf _ file).trans (List.map_id' _)

/-- Files linted after others have the results that they have without them, and each file has the
result that it has alone. -/
theorem lintAll_append (system : FileSystem) (earlier later : List Path) :
    (lintAll system (earlier ++ later)).1 =
        (lintAll system earlier).1 ++ (lintAll system later).1 ∧
      ∀ files, (lintAll system files).1 = files.flatMap fun file => (lintAll system [file]).1 := by
  refine ⟨?_, fun files => ?_⟩
  · simp only [results_lintAll, List.map_append]
  · simp only [results_lintAll, List.map_cons, List.map_nil, ← List.map_eq_flatMap]

end QueryOptions.CatalogFile
