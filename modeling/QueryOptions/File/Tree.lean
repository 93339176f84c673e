import QueryOptions.Entries
import QueryOptions.File.Path

/-!
File trees. A path is followed name by name from the root or from the current directory; a double
dot leads to the directory above. The main functions are `FileSystem.entry?`, which follows a path,
`FileSystem.refuses`, which tells the paths that are too long to be followed, and
`FileSystem.below`, which lists all that lies below a directory.
-/

namespace QueryOptions

/-- A device exists but has neither a content nor entries. -/
inductive FileEntry where
  | file (content : Bytes)
  | device
  | directory (entries : List (Text × FileEntry))

namespace FileEntry

def isFile : FileEntry → Bool
  | .file _ => true
  | _ => false

def isDirectory : FileEntry → Bool
  | .directory _ => true
  | _ => false

/-- The entry at the end of the names. -/
def get? : FileEntry → List Text → Option FileEntry
  | entry, [] => some entry
  | .directory entries, name :: rest => (Entries.find? name entries).bind (·.get? rest)
  | _, _ :: _ => none

/-- Puts an entry at the end of the names, making the directories on the way; nothing can be put
below a file. -/
def put : FileEntry → List Text → FileEntry → FileEntry
  | _, [], new => new
  | .directory entries, name :: rest, new =>
      let known := (Entries.find? name entries).getD (.directory [])
      .directory (Entries.put name (known.put rest new) entries)
  | entry, _ :: _, _ => entry

/-- Takes away the entry at the end of the names. -/
def remove : FileEntry → List Text → FileEntry
  | .directory entries, [name] => .directory (entries.filter fun entry => entry.1 ≠ name)
  | .directory entries, name :: rest =>
      match Entries.find? name entries with
      | some known => .directory (Entries.put name (known.remove rest) entries)
      | none => .directory entries
  | entry, _ => entry

mutual

/-- All entries strictly below a directory, each with its path. -/
def descendants (path : Path) : FileEntry → List (Path × FileEntry)
  | .directory entries => descendantsOf path entries
  | _ => []

def descendantsOf (path : Path) : List (Text × FileEntry) → List (Path × FileEntry)
  | [] => []
  | (name, entry) :: rest =>
      (path.child name, entry) :: (entry.descendants (path.child name) ++ descendantsOf path rest)

end

end FileEntry

/-- A tree of files and the names on the way from its root to the current directory. -/
structure FileSystem where
  root : FileEntry
  current : List Text

namespace FileSystem

/-- The name that leads to the directory above. -/
def parentName : Text := ".."

/-- The names of a path from the root of the tree on. -/
def namesFromRoot (system : FileSystem) (path : Path) : List Text :=
  if path.root.isEmpty then system.current ++ path.names else path.names

/-- One step from a directory to an entry of it. The root is its own parent. -/
def step? (root : FileEntry) (place : List Text) (name : Text) : Option (List Text) :=
  match root.get? place with
  | some (.directory entries) =>
      if name = parentName then some place.dropLast
      else if Entries.hasKey name entries then some (place ++ [name])
      else none
  | _ => none

/-- The place that a path leads to, as the names on the way from the root. -/
def place? (system : FileSystem) (path : Path) : Option (List Text) :=
  (system.namesFromRoot path).foldlM (step? system.root) []

/-- The entry that a path leads to. -/
def entry? (system : FileSystem) (path : Path) : Option FileEntry :=
  (system.place? path).bind system.root.get?

/-- Whether the names lead to a directory that is asked for a name too long. -/
def asksTooMuch (root : FileEntry) (place : List Text) : List Text → Bool
  | [] => false
  | name :: rest =>
      (root.get? place).any FileEntry.isDirectory &&
        (Path.isLongName name || (step? root place name).any fun next => asksTooMuch root next rest)

/-- Whether looking a path up fails, so that not even its absence is found out. A path that cannot
be written in bytes is not looked up. -/
def refuses (system : FileSystem) (path : Path) : Bool :=
  path.toText.pathSize?.isSome &&
    (path.isLong || asksTooMuch system.root [] (system.namesFromRoot path))

def isFile (system : FileSystem) (path : Path) : Bool := (system.entry? path).any FileEntry.isFile

/-- All that lies strictly below a path, under paths that begin with it. -/
def below (system : FileSystem) (path : Path) : List (Path × FileEntry) :=
  match system.entry? path with
  | some entry => entry.descendants path
  | none => []

/-- One step into a directory that is there or is made now. -/
def enterDirectory? (root : FileEntry) (place : List Text) (name : Text) :
    Option (FileEntry × List Text) :=
  match step? root place name with
  | some next => if (root.get? next).any FileEntry.isDirectory then some (root, next) else none
  | none =>
      if (root.get? place).any FileEntry.isDirectory then
        some (root.put (place ++ [name]) (.directory []), place ++ [name])
      else none

/-- Makes the directory at a path and those above it that are missing. Gives its place, too. -/
def makeDirectory? (system : FileSystem) (path : Path) : Option (FileSystem × List Text) := do
  guard path.isMakeable
  let (root, place) ← (system.namesFromRoot path).foldlM
    (fun (root, place) name => enterDirectory? root place name) (system.root, [])
  return ({ system with root := root }, place)

/-- Writes a file, making the directories above it that are missing. A device swallows what is
written to it. -/
def write? (system : FileSystem) (path : Path) (content : Bytes) : Option FileSystem := do
  guard path.isMakeable
  let (system, directory) ← system.makeDirectory? path.parent
  let place := directory ++ [path.name]
  if path.name.isEmpty || path.name = parentName then none
  else
    match system.root.get? place with
    | some (.directory _) => none
    | some .device => some system
    | _ => some { system with root := system.root.put place (.file content) }

/-- Removes what a path leads to. -/
def remove? (system : FileSystem) (path : Path) : Option FileSystem := do
  guard !system.refuses path
  return { system with root := system.root.remove (← system.place? path) }

end FileSystem

end QueryOptions
