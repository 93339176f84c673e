import QueryOptions.Catalog.Reader
import QueryOptions.Proofs.Loops

namespace QueryOptions

/-! Readers and the files they read. All ways in which one reading can go are the cases of
`DocumentReader.Reads`. As long as no file changes, a reader gives what the files hold, whatever it has
kept of them and whatever it read before. -/

/-- The document that a file holds. -/
def FileSystem.document (system : FileSystem) (file : Path) : Except LoadError CatalogDocument :=
  if system.refuses file then .error (.nameTooLong file)
  else
    match system.entry? file with
    | none => .error (.missingFile file)
    | some (.file content) => (DocumentReader.contentDocument content file).map fun document =>
        ⟨document.value, some document.sources, some file⟩
    | some _ => .error (.notAFile file)

theorem FileSystem.document_of_refuses {system : FileSystem} {file : Path}
    (refused : system.refuses file = true) : system.document file = .error (.nameTooLong file) :=
  if_pos refused

theorem FileSystem.document_of_file {system : FileSystem} {file : Path} {content : Bytes}
    (short : system.refuses file = false) (stands : system.entry? file = some (.file content)) :
    system.document file = (DocumentReader.contentDocument content file).map fun document =>
      ⟨document.value, some document.sources, some file⟩ := by
  simp [document, short, stands]

theorem FileSystem.file_of_document {system : FileSystem} {file : Path}
    {document : CatalogDocument} (read : system.document file = .ok document) :
    document.file = some file := by
  unfold FileSystem.document at read
  split at read
  · contradiction
  · split at read
    · contradiction
    · obtain ⟨content, -, rfl⟩ := map_eq_ok_iff.mp read
      rfl
    · contradiction

/-- Why a file gives no document. -/
inductive FileSystem.Unread (system : FileSystem) (file : Path) : LoadError → Prop
  | refused (long : system.refuses file = true) : Unread system file (.nameTooLong file)
  | missing (absent : system.entry? file = none) : Unread system file (.missingFile file)
  | irregular (short : system.refuses file = false) (other : system.isFile file = false) :
      Unread system file (.notAFile file)
  | undecoded : Unread system file (.unreadable file)
  | malformed : Unread system file (.malformed (some file))
  | faulty (fault : Yaml.Error) : Unread system file (.scalar fault)

theorem FileSystem.Unread.of_content {system : FileSystem} {file : Path} {content : Bytes}
    {make : Yaml.Document → CatalogDocument} {error : LoadError}
    (ended : (DocumentReader.contentDocument content file).map make = .error error) :
    system.Unread file error := by
  unfold DocumentReader.contentDocument at ended
  split at ended
  · cases ended
    exact .undecoded
  · rename_i text _
    cases read : Yaml.Document.ofText (DocumentReader.withLineFeeds text) with
    | ok document =>
        rw [read] at ended
        cases ended
    | error fault =>
        rw [read] at ended
        cases ended
        cases fault with
        | malformed => exact .malformed
        | _ => exact .faulty _

theorem FileSystem.unread_of_document {system : FileSystem} {file : Path} {error : LoadError}
    (ended : system.document file = .error error) : system.Unread file error := by
  unfold FileSystem.document at ended
  split at ended
  · rename_i long
    cases ended
    exact .refused long
  · rename_i short
    split at ended
    · rename_i absent
      cases ended
      exact .missing absent
    · rename_i content _
      exact .of_content ended
    · rename_i entry other stands
      cases ended
      refine .irregular (Bool.not_eq_true _ ▸ short) ?_
      rw [isFile, stands]
      cases entry with
      | file content => exact absurd rfl (other content)
      | _ => rfl

namespace Reading

def content (reading : Reading) : Yaml.Document := ⟨reading.value, reading.sources⟩

end Reading

namespace DocumentReader

/-- What a reader has kept of a file, if it keeps anything. -/
def kept? (reader : DocumentReader) (file : Path) : Option Reading :=
  if reader.caching then Entries.find? file reader.cache else none

/-- How a reading can go, and the reader after it. -/
inductive Reads (reader : DocumentReader) (system : FileSystem) (file : Path) :
    Except LoadError Reading × DocumentReader → Prop
  | refused (long : system.refuses file = true) :
      Reads reader system file (.error (.nameTooLong file), reader)
  | absent {error : LoadError} (none : system.isFile file = false)
      (expected : error.isExpected = true) (ended : system.document file = .error error) :
      Reads reader system file (.error error, reader)
  | kept {bytes : Bytes} {reading : Reading} (short : system.refuses file = false)
      (stands : system.entry? file = some (.file bytes))
      (known : reader.kept? file = some reading) : Reads reader system file (.ok reading, reader)
  | failed {bytes : Bytes} {error : LoadError} (short : system.refuses file = false)
      (stands : system.entry? file = some (.file bytes)) (unknown : reader.kept? file = none)
      (ended : contentDocument bytes file = .error error) :
      Reads reader system file (.error error, reader)
  | read {bytes : Bytes} {reading : Reading} (short : system.refuses file = false)
      (stands : system.entry? file = some (.file bytes)) (unknown : reader.kept? file = none)
      (holds : contentDocument bytes file = .ok reading.content) :
      Reads reader system file
        (.ok reading, { reader with
          cache := if reader.caching then Entries.put file reading reader.cache else reader.cache
          count := reader.count + 1 })

theorem reads_read (reader : DocumentReader) (system : FileSystem) (file : Path) :
    reader.Reads system file (reader.read system file) := by
  unfold read origin
  cases refused : system.refuses file with
  | true =>
      simp only [if_true]
      exact .refused refused
  | false =>
      simp only [Bool.false_eq_true, if_false]
      cases stands : system.entry? file with
      | none =>
          exact .absent (by simp [FileSystem.isFile, stands]) rfl
            (by simp [FileSystem.document, refused, stands])
      | some entry =>
          cases entry with
          | file bytes =>
              cases known : reader.kept? file with
              | some reading =>
                  have found : (if reader.caching then Entries.find? file reader.cache else none) =
                      some reading := known
                  simp only [found]
                  exact .kept refused stands known
              | none =>
                  have missing : (if reader.caching then Entries.find? file reader.cache else none) =
                      none := known
                  cases holds : contentDocument bytes file with
                  | error error =>
                      simp only [missing, holds]
                      exact .failed refused stands known holds
                  | ok document =>
                      simp only [missing, holds]
                      exact .read refused stands known holds
          | _ =>
              exact .absent (by simp [FileSystem.isFile, stands, FileEntry.isFile]) rfl
                (by simp [FileSystem.document, refused, stands])

variable {reader next : DocumentReader} {system : FileSystem} {file : Path} {content : Bytes}
  {outcome : Except LoadError Reading}

/-- If what has been kept of the file is what it holds now, so is what the reading gives. -/
theorem Reads.outcome_of_current (reads : reader.Reads system file (outcome, next))
    (current : ∀ bytes reading, system.entry? file = some (.file bytes) →
      reader.kept? file = some reading → contentDocument bytes file = .ok reading.content) :
    (outcome.map fun reading => reading.document file) = system.document file := by
  cases reads with
  | refused long => exact (FileSystem.document_of_refuses long).symm
  | absent _ _ ended => exact ended.symm
  | kept short stands known =>
      rw [FileSystem.document_of_file short stands, current _ _ stands known]
      rfl
  | failed short stands _ ended =>
      rw [FileSystem.document_of_file short stands, ended]
      rfl
  | read short stands _ holds =>
      rw [FileSystem.document_of_file short stands, holds]
      rfl

/-- What the reader has kept of files is what these files hold. -/
def Faithful (reader : DocumentReader) (system : FileSystem) : Prop :=
  ∀ file reading content, Entries.find? file reader.cache = some reading →
    system.entry? file = some (.file content) →
      contentDocument content file = .ok ⟨reading.value, reading.sources⟩

theorem faithful_fresh (caching : Bool) (system : FileSystem) : (fresh caching).Faithful system := by
  intro file reading content kept
  simp [fresh, Entries.find?] at kept

theorem Faithful.put (faithful : reader.Faithful system) {reading : Reading}
    (stands : system.entry? file = some (.file content))
    (holds : contentDocument content file = .ok ⟨reading.value, reading.sources⟩) (count : Nat) :
    Faithful ⟨reader.caching, Entries.put file reading reader.cache, count⟩ system := by
  intro other found bytes known entry
  by_cases same : file = other
  · subst same
    rw [Entries.find?_put_self] at known
    cases known
    rw [stands] at entry
    cases entry
    exact holds
  · rw [Entries.find?_put_of_ne reading reader.cache same] at known
    exact faithful other found bytes known entry

theorem find?_of_kept? {reading : Reading} (known : reader.kept? file = some reading) :
    Entries.find? file reader.cache = some reading := by
  unfold kept? at known
  split at known
  · exact known
  · contradiction

theorem Reads.faithful (reads : reader.Reads system file (outcome, next))
    (faithful : reader.Faithful system) : next.Faithful system := by
  cases reads with
  | read _ stands _ holds =>
      split
      · exact faithful.put stands holds _
      · exact faithful
  | _ => exact faithful

/-- One reading gives the document of the file, and leaves the reader faithful. -/
theorem Faithful.readDocument (faithful : reader.Faithful system) (file : Path) :
    (reader.readDocument system file).1 = system.document file ∧
      (reader.readDocument system file).2.Faithful system := by
  have reads := reader.reads_read system file
  refine ⟨reads.outcome_of_current fun bytes reading stands known => ?_, reads.faithful faithful⟩
  exact faithful file reading bytes (find?_of_kept? known) stands

theorem Faithful.loadCatalog (faithful : reader.Faithful system) (file : Path) :
    (reader.loadCatalog system file).1 = (system.document file).bind CatalogDocument.load := by
  show (reader.readDocument system file).1.bind CatalogDocument.load = _
  rw [(faithful.readDocument file).1]

end DocumentReader

end QueryOptions
