import QueryOptions.CommandLine.Run

/-!
The command line as a program. What lies at the given paths is read first; the run itself is the
pure function `CommandLine.run`.
-/

namespace QueryOptions.Main

def stringOf (text : Text) : String := String.ofList (text.map Char.ofNat)

/-- The place in the directories of the machine that names from the root lead to. -/
def location (names : List Text) : String := "/" ++ "/".intercalate (names.map stringOf)

/-- The content of a catalog file; other files are not read. A file that cannot be read stands as
one that holds no text. -/
def readContent (place name : String) : IO Bytes := do
  if CatalogFile.hasExtension (.ofText name) then
    try
      return (← IO.FS.readBinFile place).toList
    catch _ => return [0xFF]
  else return []

/-- The entry at a place, if there is one. A directory is shown empty. -/
def shallowEntry? (place name : String) : IO (Option FileEntry) := do
  try
    let path ← IO.FS.realPath place
    match (← path.metadata).type with
    | .dir => return some (.directory [])
    | .file => return some (.file (← readContent place name))
    | _ => return some .device
  catch _ => return none

/-- The entry at a place with all that lies below it. Links to directories are followed at the given
place only. -/
partial def deepEntry? (place name : String) (isGiven : Bool) : IO (Option FileEntry) := do
  match ← shallowEntry? place name with
  | some (.directory _) =>
      try
        let path ← IO.FS.realPath place
        if !isGiven && path.toString != place then return some (.directory [])
        let mut entries : List (Text × FileEntry) := []
        for entry in ← path.readDir do
          let inner := path.toString ++ "/" ++ entry.fileName
          if let some found ← deepEntry? inner entry.fileName false then
            entries := (Text.ofString entry.fileName, found) :: entries
        return some (.directory entries)
      catch _ => return some (.directory [])
  | entry => return entry

/-- The tree with the directories on the way to a path and with what lies at its end. -/
def addPath (system : FileSystem) (path : Path) : IO FileSystem := do
  let mut root := system.root
  let mut names : List Text := []
  for name in system.namesFromRoot path do
    names := if name = FileSystem.parentName then names.dropLast else names ++ [name]
    if (root.get? names).isNone then
      match ← shallowEntry? (location names) (stringOf name) with
      | some entry => root := root.put names entry
      | none => return { system with root := root }
  if let some entry ← deepEntry? (location names) (stringOf (names.getLastD [])) true then
    root := root.put names entry
  return { system with root := root }

/-- The files that a run with the arguments looks at. -/
def readFiles (arguments : List Text) : IO FileSystem := do
  let here := Path.ofText (← IO.FS.realPath ".").toString
  let start : FileSystem := { root := .directory [], current := here.names }
  match Arguments.ofTexts arguments with
  | .ok arguments => (CommandLine.startPaths arguments).foldlM addPath start
  | .error _ => return start

def readSettings : IO Settings := do
  let names := [Settings.logLevelVariable, Settings.printLevelVariable, Settings.cachingVariable]
  let set ← names.filterMapM fun name => do
    return (← IO.getEnv (stringOf name)).map fun value => (name, Text.ofString value)
  return Settings.ofEnvironment fun name => set.lookup name

end QueryOptions.Main

def main (arguments : List String) : IO UInt32 := do
  let texts := arguments.map QueryOptions.Text.ofString
  let system ← QueryOptions.Main.readFiles texts
  let settings ← QueryOptions.Main.readSettings
  let outcome := QueryOptions.CommandLine.run system settings texts
  for piece in outcome.printed do
    let text := QueryOptions.Main.stringOf piece.text
    match piece.stream with
    | .standard => IO.print text
    | .error => IO.eprint text
  if let some error := outcome.error then
    IO.eprintln (QueryOptions.Main.stringOf (error.typeName ++ ": " ++ error.message))
  return outcome.exit.toUInt32
