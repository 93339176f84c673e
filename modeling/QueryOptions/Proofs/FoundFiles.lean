import QueryOptions.Proofs.FileSearch
import QueryOptions.Proofs.FindingOrigins

namespace QueryOptions

/-! What the search for catalog files leads to. All of it exists, but below a directory the name alone
decides, so that a directory or a device that is named like a catalog is found too. Linting then
reports that it is not a file. -/

namespace FileSystem

variable {system : FileSystem} {file start : Path}

theorem LiesBelow.isSome_entry? (sound : system.root.WellFormed)
    (lies : system.LiesBelow start file) : (system.entry? file).isSome = true := by
  obtain ⟨entry, names, below, stands, holds, rfl⟩ := lies
  rw [entry?_of_holds sound stands holds]
  rfl

theorem isSome_entry?_of_isFile (regular : system.isFile file = true) :
    (system.entry? file).isSome = true := by
  unfold isFile at regular
  cases stands : system.entry? file with
  | none => rw [stands] at regular; contradiction
  | some entry => rfl

theorem document_of_isFile_eq_false (present : (system.entry? file).isSome = true)
    (other : system.isFile file = false) (short : system.refuses file = false) :
    system.document file = .error (.notAFile file) := by
  obtain ⟨entry, stands⟩ := Option.isSome_iff_exists.mp present
  rw [isFile, stands, Option.any_some] at other
  unfold document
  rw [short, stands]
  cases entry with
  | file content => contradiction
  | _ => rfl

/-- Of the errors that loading expects of a file, one alone begins as that about what is no file. -/
theorem Unread.isFile_eq_false {error : LoadError} (unread : system.Unread file error)
    (expected : error.isExpected = true) (begins : error.message.head? = some 'P'.toNat) :
    system.isFile file = false ∧ system.refuses file = false := by
  have others : some 'C'.toNat ≠ some 'P'.toNat ∧ some 'F'.toNat ≠ some 'P'.toNat := by decide
  cases unread with
  | irregular short other => exact ⟨other, short⟩
  | refused => contradiction
  | missing => exact absurd begins others.1
  | undecoded => exact absurd begins others.2
  | malformed => exact absurd begins others.2
  | faulty => contradiction

end FileSystem

namespace CatalogFile

variable {system : FileSystem} {file : Path} {paths : List Path}

/-- The finding about a path that leads to something else than a file. -/
def notAFileFinding (detail : Text) : Finding :=
  .plain .error ("Failed to load YAML file: " ++ ("Path is not a file: " ++ detail))

theorem isFile_eq_false_of_found {detail : Text} (named : hasExtension file = true)
    (found : notAFileFinding detail ∈ (resultOf (system.document file) file).findings) :
    system.isFile file = false ∧ system.refuses file = false := by
  rcases (origin_of_result found).opening rfl with about | ⟨error, ended, expected, same⟩ |
    ⟨first, known, begins⟩
  · unfold findings at about
    split at about
    · rename_i unnamed
      rw [hasExtension, unnamed] at named
      contradiction
    · split at about
      · exact absurd about List.not_mem_nil
      · have severity := congrArg Finding.severity (List.mem_singleton.mp about)
        contradiction
  · have messages := congrArg Finding.message same
    have told : "Path is not a file: " ++ detail = error.message := List.append_cancel_left messages
    exact (FileSystem.unread_of_document ended).isFile_eq_false expected (told ▸ rfl)
  · obtain rfl : 'F'.toNat = first := Option.some.inj begins
    exact absurd known (by decide)

theorem resultOf_of_isFile_eq_false (present : (system.entry? file).isSome = true)
    (other : system.isFile file = false) (short : system.refuses file = false) :
    notAFileFinding file.toText ∈ (resultOf (system.document file) file).findings := by
  rw [FileSystem.document_of_isFile_eq_false present other short]
  exact List.mem_append_right _ (List.mem_singleton_self _)

variable {found : List Path} {records : List LogRecord}

theorem present_of_mem_findAll (sound : system.root.WellFormed)
    (searched : findAll system paths = (.ok found, records)) (inside : file ∈ found) :
    (system.entry? file).isSome = true ∧
      (system.isFile file = false → ∃ start ∈ paths, system.LiesBelow start file) := by
  obtain ⟨-, ⟨given, regular⟩ | ⟨start, given, lies⟩⟩ := (mem_findAll_iff searched).mp inside
  · refine ⟨FileSystem.isSome_entry?_of_isFile regular, fun other => ?_⟩
    rw [regular] at other
    contradiction
  · exact ⟨lies.isSome_entry? sound, fun _ => ⟨start, given, lies⟩⟩

/-- All that a search finds exists, and what is not a regular file lies below a given directory. So all
is regular just if all entries below given directories are that are named like catalogs; and it is the
others that linting says are no files, unless their paths cannot be looked up. -/
theorem findAll_regular_iff (sound : system.root.WellFormed) (paths : List Path)
    (searched : (findAll system paths).1 = .ok found) :
    let results := (lintAll system found).1
    (∀ file ∈ found, (system.entry? file).isSome = true ∧
      (system.isFile file = false → ∃ start ∈ paths, system.LiesBelow start file)) ∧
    ((∀ file ∈ found, system.isFile file = true) ↔
      ∀ start ∈ paths, ∀ file, system.LiesBelow start file → hasExtension file = true →
        system.isFile file = true) ∧
    results.map LintResult.file = found ∧
    ∀ result ∈ results, (∃ detail, notAFileFinding detail ∈ result.findings) ↔
      system.isFile result.file = false ∧ system.refuses result.file = false := by
  intro results
  have searched : findAll system paths = (.ok found, (findAll system paths).2) :=
    Prod.ext searched rfl
  have linted : results = found.map fun file => resultOf (system.document file) file :=
    results_lintAll system found
  refine ⟨fun file inside => present_of_mem_findAll sound searched inside,
    ⟨fun regular => ?_, fun regular => ?_⟩, files_lintAll system found, fun result inside => ?_⟩
  · intro start given file lies named
    exact regular file ((mem_findAll_iff searched).mpr ⟨named, .inr ⟨start, given, lies⟩⟩)
  · intro file inside
    obtain ⟨named, ⟨-, isFile⟩ | ⟨start, given, lies⟩⟩ := (mem_findAll_iff searched).mp inside
    · exact isFile
    · exact regular start given file lies named
  · rw [linted] at inside
    obtain ⟨file, known, rfl⟩ := List.mem_map.mp inside
    rw [file_resultOf]
    constructor
    · rintro ⟨detail, told⟩
      exact isFile_eq_false_of_found ((mem_findAll_iff searched).mp known).1 told
    · rintro ⟨other, short⟩
      have present := (present_of_mem_findAll sound searched known).1
      exact ⟨_, resultOf_of_isFile_eq_false present other short⟩

/-- A directory below the given one. -/
def oddCatalog : Path := .ofText "services/old/odd.catalog.yaml"

/-- All that is found below the given directory. -/
def nestedCatalogs : List Path :=
  [oddCatalog, .ofText "services/old/search.catalog.yaml", .ofText "services/search.catalog.yaml"]

theorem nestedCatalogs_found : (findAll nestedFiles [.ofText "services"]).1 = .ok nestedCatalogs := by
  decide +kernel

theorem nestedFiles_linted :
    nestedFiles.root.WellFormed ∧
    (findAll nestedFiles [.ofText "services"]).1 = .ok nestedCatalogs ∧
    (∀ file ∈ nestedCatalogs, (nestedFiles.entry? file).isSome = true) ∧
    ∃ result ∈ (lintAll nestedFiles nestedCatalogs).1, result.file = oddCatalog ∧
      ∃ detail, notAFileFinding detail ∈ result.findings := by
  have other : nestedFiles.isFile oddCatalog = false := by decide +kernel
  have short : nestedFiles.refuses oddCatalog = false := by decide +kernel
  obtain ⟨present, -, files, told⟩ :=
    findAll_regular_iff wellFormed_nestedFiles [.ofText "services"] nestedCatalogs_found
  have inside : oddCatalog ∈ nestedCatalogs := List.mem_cons_self
  rw [← files] at inside
  obtain ⟨result, linted, same⟩ := List.mem_map.mp inside
  exact ⟨wellFormed_nestedFiles, nestedCatalogs_found, fun file known => (present file known).1,
    result, linted, same, (told result linted).mpr (same ▸ ⟨other, short⟩)⟩

/-- The search does not keep to files. -/
theorem findAll_irregular : ¬ ∀ (system : FileSystem) (paths found : List Path),
    system.root.WellFormed → (findAll system paths).1 = .ok found →
      ∀ file ∈ found, system.isFile file = true := by
  intro regular
  have other : nestedFiles.isFile oddCatalog = false := by decide +kernel
  have isFile := regular nestedFiles _ _ wellFormed_nestedFiles nestedCatalogs_found oddCatalog
    List.mem_cons_self
  rw [other] at isFile
  contradiction

end CatalogFile

end QueryOptions
