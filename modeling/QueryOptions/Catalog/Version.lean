import QueryOptions.Text.Blank
import QueryOptions.Value.Written

/-!
Format versions of catalogs. The major version has to be the one that is read here; a newer minor
version is read but noted, and the patch level does not matter.
-/

namespace QueryOptions

structure FormatVersion where
  major : Nat
  minor : Nat
  patch : Nat
deriving DecidableEq, Repr

/-- Why a declared version is not read. -/
inductive VersionError where
  | notText (given : Value)
  | malformed (given : Value)
  | incompatible (declared : FormatVersion)

/-- What is to be noted about a version that is read. -/
inductive VersionNotice where
  | missing
  | newerMinor (declared : FormatVersion)

namespace FormatVersion

/-- The field of a catalog that declares its version. -/
def field : Text := "option_grammar_format"

def supported : FormatVersion := ⟨1, 0, 0⟩

/-- The three numbers with dots between them. -/
def toText (version : FormatVersion) : Text :=
  Text.ofNat version.major ++ "." ++ Text.ofNat version.minor ++ "." ++ Text.ofNat version.patch

def number? (digits : Text) : Option Nat :=
  if digits.isEmpty || !digits.all CodePoint.isDigit then none else some digits.decimalValue

def withoutMark : Text → Text
  | [] => []
  | point :: rest => if point = 'v'.toNat then rest else point :: rest

/-- Three runs of decimal digits with dots between them, perhaps after a `v`; blanks around them do
not count. -/
def ofText? (text : Text) : Option FormatVersion :=
  match Text.split '.' (withoutMark text.trimBlanks) with
  | [major, minor, patch] => do return ⟨← number? major, ← number? minor, ← number? patch⟩
  | _ => none

theorem toText_eq (version : FormatVersion) : version.toText =
    Text.ofNat version.major ++ '.'.toNat ::
      (Text.ofNat version.minor ++ '.'.toNat :: Text.ofNat version.patch) := by
  have dot : Text.ofString "." = ['.'.toNat] := by decide
  simp only [toText, dot, List.append_assoc, List.cons_append, List.nil_append]

theorem mem_toText {version : FormatVersion} {point : CodePoint}
    (member : point ∈ version.toText) : point.isAsciiDigit = true ∨ point = '.'.toNat := by
  rw [toText_eq] at member
  simp only [List.mem_append, List.mem_cons] at member
  rcases member with major | dot | minor | dot | patch
  · exact .inl (Text.isAsciiDigit_of_mem_ofNat major)
  · exact .inr dot
  · exact .inl (Text.isAsciiDigit_of_mem_ofNat minor)
  · exact .inr dot
  · exact .inl (Text.isAsciiDigit_of_mem_ofNat patch)

theorem lt_of_mem_toText {version : FormatVersion} {point : CodePoint}
    (member : point ∈ version.toText) : point < 0x80 := by
  rcases mem_toText member with digit | dot
  · exact CodePoint.lt_of_isAsciiDigit digit
  · rw [dot]
    decide

theorem pos_of_mem_toText {version : FormatVersion} {point : CodePoint}
    (member : point ∈ version.toText) : 0 < point := by
  rcases mem_toText member with digit | dot
  · exact CodePoint.pos_of_isAsciiDigit digit
  · rw [dot]
    decide

private theorem number?_ofNat (number : Nat) : number? (Text.ofNat number) = some number := by
  have digits : (Text.ofNat number).all CodePoint.isDigit = true := List.all_eq_true.mpr
    fun point member => CodePoint.isDigit_of_isAsciiDigit (Text.isAsciiDigit_of_mem_ofNat member)
  simp [number?, digits, Text.ofNat_ne_nil, Text.decimalValue_ofNat]

/-- A version is read back from its text. -/
theorem ofText?_toText (version : FormatVersion) : ofText? version.toText = some version := by
  have trimmed : version.toText.trimBlanks = version.toText := by
    have visible : ∀ point < 0x80, CodePoint.isAsciiDigit point = true ∨ point = '.'.toNat →
        CodePoint.isBlank point = false := by decide
    exact Text.trim_of_forall_not fun point member =>
      visible point (lt_of_mem_toText member) (mem_toText member)
  have unmarked : withoutMark version.toText = version.toText := by
    have other : 'v'.toNat ∉ version.toText := fun member =>
      absurd (mem_toText member) (by decide)
    cases shape : version.toText with
    | nil => rfl
    | cons point rest =>
        have different : point ≠ 'v'.toNat := by
          rintro rfl
          exact other (shape ▸ List.mem_cons_self)
        rw [withoutMark, if_neg different]
  have pieces : Text.split '.' version.toText =
      [Text.ofNat version.major, Text.ofNat version.minor, Text.ofNat version.patch] := by
    rw [toText_eq, Text.split_append (Text.dot_notMem_ofNat _),
      Text.split_append (Text.dot_notMem_ofNat _), Text.split_of_notMem (Text.dot_notMem_ofNat _)]
  rw [ofText?, trimmed, unmarked, pieces]
  simp only [number?_ofNat]
  rfl

def read (given : Value) : Except VersionError FormatVersion :=
  match given.text? with
  | none => .error (.notText given)
  | some text =>
      match ofText? text with
      | some version => .ok version
      | none => .error (.malformed given)

end FormatVersion

namespace VersionError

def message : VersionError → Text
  | .notText given =>
      "'" ++ FormatVersion.field ++ "' must be a string, got " ++ given.typeName ++ ": " ++
        given.written
  | .malformed given =>
      "Invalid '" ++ FormatVersion.field ++ "' value '" ++ given.shown ++
        "', expected MAJOR.MINOR.PATCH"
  | .incompatible declared =>
      "Incompatible format version: catalog declares " ++ declared.toText ++
        ", this library reads " ++ Text.ofNat FormatVersion.supported.major ++ ".x catalogs"

end VersionError

namespace VersionNotice

def message : VersionNotice → Text
  | .missing =>
      "Missing '" ++ FormatVersion.field ++ "' field, assuming " ++ FormatVersion.supported.toText
  | .newerMinor declared =>
      "Catalog format " ++ declared.toText ++ " has a newer minor version than " ++
        FormatVersion.supported.toText ++ "; unknown fields will be rejected"

end VersionNotice

/-- The outcome of checking the version that a catalog declares. -/
structure VersionCheck where
  declared : Option FormatVersion
  error : Option VersionError
  notice : Option VersionNotice

namespace VersionCheck

/-- Checks a declared version; `null` stands for a missing one. -/
def ofValue (given : Value) : VersionCheck :=
  match given with
  | .null => ⟨none, none, some .missing⟩
  | _ =>
      match FormatVersion.read given with
      | .error error => ⟨none, some error, none⟩
      | .ok declared =>
          if declared.major ≠ FormatVersion.supported.major then
            ⟨some declared, some (.incompatible declared), none⟩
          else if FormatVersion.supported.minor < declared.minor then
            ⟨some declared, none, some (.newerMinor declared)⟩
          else ⟨some declared, none, none⟩

def isCompatible (check : VersionCheck) : Bool := check.error.isNone

/-- The version whose layout applies to the catalog. -/
def layoutVersion (check : VersionCheck) : Text :=
  (check.declared.getD FormatVersion.supported).toText

/-- The layout of a version that is read is sought under a version of the major number read here. -/
theorem exists_layoutVersion {given : Value} (read : (ofValue given).error = none) :
    ∃ version : FormatVersion, version.major = FormatVersion.supported.major ∧
      (ofValue given).layoutVersion = version.toText := by
  revert read
  unfold ofValue
  split
  · exact fun _ => ⟨FormatVersion.supported, rfl, rfl⟩
  · split
    · exact nofun
    · rename_i declared _
      split
      · exact nofun
      · rename_i supported
        refine fun _ => ⟨declared, Decidable.not_not.mp supported, ?_⟩
        split <;> rfl

end VersionCheck

end QueryOptions
