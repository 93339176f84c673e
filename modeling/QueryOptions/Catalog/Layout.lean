import QueryOptions.Catalog.Version
import QueryOptions.File.Path

/-!
The catalog layouts that come with the library. They lie in a directory with one subdirectory for
each version; a version that is not there is served by the newest one of its major version.
-/

namespace QueryOptions

inductive LayoutError where
  | notFound (version resolved : Text)
  /-- A file name of more than 255 bytes cannot be looked up at all. -/
  | nameTooLong (file : Path)

namespace Layout

/-- The directory of the layouts, by the name under which it is shown. -/
def directory : Path := ⟨[], ["<schema_dir>"]⟩

/-- The versions that have a layout. -/
def bundled : List FormatVersion := [⟨1, 0, 0⟩]

/-- The file that would hold the layout of a version, taken as a path. -/
def file (version : Text) : Path := (directory.append (.ofText version)).child "catalog.json"

/-- Where a walk down a path stands. -/
private inductive Place where
  | directory
  | layout
  | nowhere
deriving DecidableEq

private def enter (place : Place) (name : Text) : Place :=
  match place with
  | .directory =>
      if bundled.any fun version => version.toText == name then .layout else .nowhere
  | .layout => if name = Text.ofString ".." then .directory else .nowhere
  | .nowhere => .nowhere

/-- Whether a version, taken as a path from the directory, leads to a layout. -/
def isBundled (version : Text) : Except LayoutError Bool :=
  let path := Path.ofText version
  let rec walk (place : Place) : List Text → Except LayoutError Bool
    | [] => .ok (place = .layout)
    | name :: rest =>
        if place = .nowhere then .ok false
        else if Path.isLongName name then .error (.nameTooLong (file version))
        else walk (enter place name) rest
  if path.root.isEmpty then walk .directory path.names else .ok false

private theorem ofText_toText (version : FormatVersion) :
    Path.ofText version.toText = ⟨[], [version.toText]⟩ := by
  have read := FormatVersion.ofText?_toText version
  refine Path.ofText_of_name (fun member => ?_) (fun empty => ?_) (fun dot => ?_)
  · exact absurd (FormatVersion.mem_toText member) (by decide)
  · rw [empty] at read
    contradiction
  · rw [dot] at read
    contradiction

private theorem isLongName_toText (version : FormatVersion) :
    Path.isLongName version.toText = decide (255 < version.toText.length) := by
  have size : version.toText.pathSize? = some version.toText.length :=
    Text.pathSize?_of_ascii fun _ member =>
      ⟨FormatVersion.pos_of_mem_toText member, FormatVersion.lt_of_mem_toText member⟩
  rw [Path.isLongName, size, Option.any_some]
  rfl

/-- A version is one name in the directory of the layouts. -/
theorem isBundled_toText (version : FormatVersion) : isBundled version.toText =
    if 255 < version.toText.length then .error (.nameTooLong (file version.toText))
    else .ok (bundled.any fun known => known.toText == version.toText) := by
  unfold isBundled
  simp only [ofText_toText, isBundled.walk, isLongName_toText, enter]
  by_cases known : (bundled.any fun known => known.toText == version.toText) = true <;>
    simp [known]

/-- Of two versions of one major version the newer one. -/
private def newer (left right : FormatVersion) : FormatVersion :=
  if left.minor < right.minor || (left.minor = right.minor && left.patch < right.patch) then right
  else left

private def newest? (versions : List FormatVersion) : Option FormatVersion :=
  match versions with
  | [] => none
  | first :: rest => some (rest.foldl newer first)

/-- The version whose layout stands for the given one. A text that is no version stays as it is. -/
def resolve (version : Text) : Except LayoutError Text := do
  match FormatVersion.ofText? version with
  | none => return version
  | some parsed =>
      if ← isBundled version then return version
      match newest? (bundled.filter fun candidate => candidate.major = parsed.major) with
      | some candidate => return candidate.toText
      | none => return version

/-- The identifier of the layout for a version. -/
def load (version : Text) : Except LayoutError Text := do
  let resolved ← resolve version
  if ← isBundled resolved then return "option_grammar/catalog/1.0.0"
  else throw (.notFound version resolved)

/-- There is a layout for each version of the major number read here, unless its text is too long
for a file name. -/
theorem load_toText {version : FormatVersion} (read : version.major = FormatVersion.supported.major) :
    load version.toText =
      if 255 < version.toText.length then .error (.nameTooLong (file version.toText))
      else .ok "option_grammar/catalog/1.0.0" := by
  by_cases long : 255 < version.toText.length
  · simp only [load, resolve, FormatVersion.ofText?_toText, isBundled_toText, if_pos long]
    rfl
  · have servedBy : ∃ server : FormatVersion, resolve version.toText = .ok server.toText ∧
        isBundled server.toText = .ok true := by
      cases known : bundled.any fun known => known.toText == version.toText with
      | true =>
          refine ⟨version, ?_, ?_⟩
          · simp only [resolve, FormatVersion.ofText?_toText, isBundled_toText, if_neg long, known]
            rfl
          · rw [isBundled_toText, if_neg long, known]
      | false =>
          refine ⟨FormatVersion.supported, ?_, ?_⟩
          · simp only [resolve, FormatVersion.ofText?_toText, isBundled_toText, if_neg long, known,
              read]
            rfl
          · rw [isBundled_toText]
            rfl
    obtain ⟨server, resolved, present⟩ := servedBy
    simp only [load, resolved, bind, Except.bind, present, if_neg long]
    rfl

end Layout

namespace LayoutError

def message : LayoutError → Text
  | .notFound version resolved =>
      "Catalog schema not found for version " ++ version ++ " (resolved to " ++ resolved ++ "): " ++
        (Layout.file resolved).toText
  | .nameTooLong file => (NameTooLong.mk file).message

end LayoutError

end QueryOptions
