import QueryOptions.Entries
import QueryOptions.File.Path
import QueryOptions.Source.Pointer
import QueryOptions.Text.Line

/-!
Where the values of a document stand. A source map gives the lines and columns of pointers; a
pointer that it does not know is looked for at its nearest ancestor that it knows.
-/

namespace QueryOptions

/-- Line and column, counted from 1, as far as they are known. -/
structure Position where
  line : Option Int
  column : Option Int
deriving DecidableEq, Repr

def Position.isKnown (position : Position) : Bool :=
  position.line.isSome || position.column.isSome

abbrev SourceMap := List (Text × Position)

structure SourceLocation where
  file : Option Path
  pointer : Option Text
  position : Position
deriving DecidableEq, Repr

namespace SourceMap

/-- The pointer and its ancestors, nearest first, down to the part before its first slash. -/
def ancestors (pointer : Text) : List Text :=
  let pieces := Text.split '/' pointer
  (List.range pieces.length).reverse.map fun count => Text.join "/" (pieces.take (count + 1))

/-- The position of the pointer or of its nearest ancestor that has one. -/
def position? (sources : SourceMap) (pointer : Text) : Option Position :=
  (ancestors pointer).findSome? fun probe => (Entries.find? probe sources).filter (·.isKnown)

end SourceMap

namespace SourceLocation

def unknown (file : Option Path) (pointer : Option Text) : SourceLocation :=
  ⟨file, pointer, ⟨none, none⟩⟩

/-- Locates a pointer of a document that may come from a file and may have a source map. -/
def locate (sources : Option SourceMap) (pointer : Option Text) (file : Option Path) :
    SourceLocation :=
  match sources, pointer with
  | some sources, some pointer =>
      match sources.position? pointer with
      | some position => ⟨file, some pointer, position⟩
      | none => unknown file (some pointer)
  | _, _ => unknown file pointer

private def fileText (file : Path) (position : Position) : Text :=
  let place : Text :=
    match position.line, position.column with
    | some line, some column => ":" ++ Text.ofInt line ++ ":" ++ Text.ofInt column
    | some line, none => ":" ++ Text.ofInt line
    | none, _ => []
  "source= " ++ file.toText ++ place ++ " "

/-- The location in brackets as messages append it; empty when nothing is known. -/
def toText (location : SourceLocation) : Text :=
  let file : List Text :=
    match location.file with
    | some file => [fileText file location.position]
    | none => []
  let pointer : List Text :=
    match location.pointer with
    | some pointer => if pointer.isEmpty then [] else ["yaml_path=" ++ pointer]
    | none => []
  let parts := file ++ pointer
  if parts.isEmpty then [] else " (" ++ Text.join " " parts ++ ")"

private theorem isLine_fileText {file : Path} (line : Text.IsLine file.toText)
    (position : Position) : Text.IsLine (fileText file position) := by
  unfold fileText
  dsimp only
  split <;>
    (simp only [Text.isLine_append, Text.isLine_ofInt, line, and_true, Text.isLine_nil]; decide)

theorem isLine_toText {location : SourceLocation}
    (filed : ∀ file, location.file = some file → Text.IsLine file.toText)
    (pointed : ∀ pointer, location.pointer = some pointer → Text.IsLine pointer) :
    Text.IsLine location.toText := by
  have parts {pieces : List Text} (lines : ∀ piece ∈ pieces, Text.IsLine piece) :
      Text.IsLine (if pieces.isEmpty then [] else " (" ++ Text.join " " pieces ++ ")") := by
    have joined := Text.isLine_join " " (by decide) lines
    split
    · exact Text.isLine_nil
    · simp only [Text.isLine_append, joined, and_true]
      decide
  obtain ⟨file, pointer, position⟩ := location
  have none : ∀ part ∈ ([] : List Text), Text.IsLine part :=
    fun _ inside => absurd inside List.not_mem_nil
  unfold toText
  dsimp only
  refine parts (List.forall_mem_append.mpr ⟨?_, ?_⟩)
  · cases file with
    | none => exact none
    | some file => exact List.forall_mem_singleton.mpr (isLine_fileText (filed file rfl) _)
  · cases pointer with
    | none => exact none
    | some pointer =>
        dsimp only
        split
        · exact none
        · exact List.forall_mem_singleton.mpr
            (Text.isLine_append.mpr ⟨by decide, pointed pointer rfl⟩)

end SourceLocation

end QueryOptions
