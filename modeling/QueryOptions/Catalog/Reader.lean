import QueryOptions.Catalog.Basic
import QueryOptions.File.Tree
import QueryOptions.Logging

/-!
Reading the documents of catalog files. A reader that caches keeps the first successful reading of
each path; whether the path leads to a file is looked up every time. The main function is
`DocumentReader.read`.
-/

namespace QueryOptions

/-- What the text of a file held. Readings of one reader are numbered. -/
structure Reading where
  number : Nat
  value : Value
  sources : SourceMap

namespace Reading

/-- Small scalars are kept once for all readings. -/
private def isShared : Value → Bool
  | .bool _ => true
  | .int number => -5 ≤ number && number ≤ 256
  | .float number => number == .nan
  | .text [] => true
  | .text [point] => point < 256
  | .bytes .fixed data => data.length ≤ 1
  | _ => false

/-- Whether the value of one reading is the very value of another. -/
def hasSameValue (left right : Reading) : Bool :=
  left.number = right.number || (isShared left.value && left.value.sameForm right.value)

/-- The document that was read from a file. -/
def document (reading : Reading) (file : Path) : CatalogDocument :=
  ⟨reading.value, some reading.sources, some file⟩

end Reading

structure DocumentReader where
  caching : Bool
  cache : List (Path × Reading)
  /-- How many readings there have been. -/
  count : Nat

namespace DocumentReader

def fresh (caching : Bool) : DocumentReader := ⟨caching, [], 0⟩

def clearCache (reader : DocumentReader) : DocumentReader := { reader with cache := [] }

/-- Where the reading of a file is taken from. -/
inductive Origin where
  | cache (reading : Reading)
  | content (bytes : Bytes)

/-- What stands at a path, which has to be a file even if it has been read before. -/
def origin (reader : DocumentReader) (system : FileSystem) (file : Path) :
    Except LoadError Origin :=
  if system.refuses file then .error (.nameTooLong file)
  else
    match system.entry? file with
    | none => .error (.missingFile file)
    | some (.file content) =>
        match if reader.caching then Entries.find? file reader.cache else none with
        | some reading => .ok (.cache reading)
        | none => .ok (.content content)
    | some _ => .error (.notAFile file)

/-- All ways to end a line are brought to a line feed. -/
def withLineFeeds : Text → Text
  | [] => []
  | [point] => if point = '\r'.toNat then ['\n'.toNat] else [point]
  | point :: next :: rest =>
      if point = '\r'.toNat then
        if next = '\n'.toNat then '\n' :: withLineFeeds rest
        else '\n' :: withLineFeeds (next :: rest)
      else point :: withLineFeeds (next :: rest)

/-- The value and the source map of a file's content. -/
def contentDocument (content : Bytes) (file : Path) : Except LoadError Yaml.Document :=
  match content.utf8Text? with
  | none => .error (.unreadable file)
  | some text => (Yaml.Document.ofText (withLineFeeds text)).mapError (.ofYaml (some file))

/-- Reads a file, and keeps the reading if the reader caches. -/
def read (reader : DocumentReader) (system : FileSystem) (file : Path) :
    Except LoadError Reading × DocumentReader :=
  match reader.origin system file with
  | .error error => (.error error, reader)
  | .ok (.cache reading) => (.ok reading, reader)
  | .ok (.content content) =>
      match contentDocument content file with
      | .error error => (.error error, reader)
      | .ok document =>
          let reading : Reading := ⟨reader.count, document.value, document.sources⟩
          let cache :=
            if reader.caching then Entries.put file reading reader.cache else reader.cache
          (.ok reading, { reader with cache := cache, count := reader.count + 1 })

def loggerName : Text := "option_grammar.catalog.yaml_reader"

/-- What is logged about a reading before it takes place. -/
def records (reader : DocumentReader) (system : FileSystem) (file : Path) : List LogRecord :=
  match reader.origin system file with
  | .error _ => []
  | .ok (.cache _) =>
      [⟨loggerName, LogLevel.debug, "Loading catalog from cache: " ++ file.toText⟩]
  | .ok (.content _) => [⟨loggerName, LogLevel.debug, "Loading catalog file: " ++ file.toText⟩]

/-- Reads the document of a catalog file. -/
def readDocument (reader : DocumentReader) (system : FileSystem) (file : Path) :
    Except LoadError CatalogDocument × DocumentReader :=
  let (reading, reader) := reader.read system file
  (reading.map fun reading => reading.document file, reader)

/-- Loads the catalog of a file. -/
def loadCatalog (reader : DocumentReader) (system : FileSystem) (file : Path) :
    Except LoadError Catalog × DocumentReader :=
  let (document, reader) := reader.readDocument system file
  (document.bind CatalogDocument.load, reader)

end DocumentReader

end QueryOptions
