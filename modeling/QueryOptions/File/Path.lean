import QueryOptions.Text.Utf8

/-!
File paths as a root and the names below it. Empty names and single dots say nothing and are
dropped; a double dot stays, since what it means depends on the files.
-/

namespace QueryOptions

/-- The bytes that a character takes in a path. Some surrogates stand for single bytes; the others
and the null character stand in no path. -/
def CodePoint.pathSize? (point : CodePoint) : Option Nat :=
  if point = 0 then none
  else if 0xDC80 ≤ point && point ≤ 0xDCFF then some 1
  else point.utf8?.map List.length

def Text.pathSize? : Text → Option Nat
  | [] => some 0
  | point :: rest => do return (← point.pathSize?) + (← Text.pathSize? rest)

theorem Text.pathSize?_of_ascii {text : Text} (ascii : ∀ point ∈ text, 0 < point ∧ point < 0x80) :
    text.pathSize? = some text.length := by
  induction text with
  | nil => rfl
  | cons point rest ih =>
      obtain ⟨⟨positive, small⟩, others⟩ := List.forall_mem_cons.mp ascii
      have first : CodePoint.pathSize? point = some 1 := by
        have single : ¬ 0xDC80 ≤ point := Nat.not_le.mpr (Nat.lt_trans small (by decide))
        simp [CodePoint.pathSize?, CodePoint.utf8?, Nat.ne_of_gt positive, single, small]
      rw [Text.pathSize?, first, ih others, List.length_cons, Nat.add_comm]
      rfl

/-- The root is empty for a relative path. -/
structure Path where
  root : Text
  names : List Text
deriving DecidableEq, Repr

namespace Path

/-- Two slashes at the beginning are a root of their own; any other number of them counts as one. -/
private def rootOf (text : Text) : Text :=
  let slashes := text.takeWhile (· = '/'.toNat)
  if slashes.length = 2 then slashes else slashes.take 1

def ofText (text : Text) : Path :=
  { root := rootOf text
    names := (Text.split '/' text).filter fun name => !name.isEmpty && name ≠ Text.ofString "." }

theorem root_ofText (text : Text) : (ofText text).root = [] ∨ '/'.toNat ∈ (ofText text).root := by
  cases text with
  | nil => exact .inl rfl
  | cons point rest =>
      by_cases slash : point = '/'.toNat
      · subst slash
        refine .inr ?_
        simp only [ofText, rootOf, List.takeWhile_cons, decide_true, if_true]
        split <;> simp
      · rw [ofText, rootOf, List.takeWhile_cons_of_neg (by simpa using slash)]
        exact .inl rfl

/-- A name on its own is a path of one name. -/
theorem ofText_of_name {name : Text} (single : '/'.toNat ∉ name) (nonempty : name ≠ [])
    (named : name ≠ Text.ofString ".") : ofText name = ⟨[], [name]⟩ := by
  have relative : rootOf name = [] := by
    cases name with
    | nil => rfl
    | cons point rest =>
        have other : point ≠ '/'.toNat := fun same => single (same ▸ List.mem_cons_self)
        rw [rootOf, List.takeWhile_cons_of_neg (by simpa using other)]
        rfl
  rw [ofText, relative, Text.split_of_notMem single]
  simp [nonempty, named]

def toText (path : Path) : Text :=
  let below := Text.join "/" path.names
  if path.root.isEmpty && path.names.isEmpty then "." else path.root ++ below

/-- How many bytes a name can have at most. -/
def greatestNameSize : Nat := 255

/-- How many bytes a path can have at most. -/
def greatestSize : Nat := 4095

def isLongName (name : Text) : Bool := name.pathSize?.any (greatestNameSize < ·)

/-- Whether the path as a whole is too long, whatever its names are. -/
def isLong (path : Path) : Bool := path.toText.pathSize?.any (greatestSize < ·)

/-- Whether something can be made at the path: it can be written in bytes, of which neither the whole
nor a name has too many. -/
def isMakeable (path : Path) : Bool :=
  path.toText.pathSize?.any (· ≤ greatestSize) && !path.names.any isLongName

/-- The last name, empty for a root and for the current directory. -/
def name (path : Path) : Text := path.names.getLastD []

/-- A path below this one; a path with a root replaces it. -/
def append (path other : Path) : Path :=
  if other.root.isEmpty then { path with names := path.names ++ other.names } else other

def child (path : Path) (name : Text) : Path := { path with names := path.names ++ [name] }

/-- The path without its last name. -/
def parent (path : Path) : Path := { path with names := path.names.dropLast }

/-- The last name without its extension; a dot at its very beginning or end starts none. -/
def stem (path : Path) : Text :=
  match Text.splitLast? '.' path.name with
  | some (before, after) => if before.isEmpty || after.isEmpty then path.name else before
  | none => path.name

/-- The names that decide the order of paths, the root first. -/
def sortKey (path : Path) : List Text :=
  if path.root.isEmpty then path.names else path.root :: path.names

/-- Paths are ordered name by name. -/
def le (left right : Path) : Bool := Text.listLe left.sortKey right.sortKey

end Path

/-- A path of which more bytes are to be looked up than can be. -/
structure NameTooLong where
  path : Path
deriving DecidableEq, Repr

def NameTooLong.message (error : NameTooLong) : Text :=
  "[Errno 36] File name too long: " ++ error.path.toText.quoted

theorem NameTooLong.isLine_message (error : NameTooLong) : Text.IsLine error.message :=
  Text.isLine_append.mpr ⟨by decide, Text.isLine_quoted _⟩

end QueryOptions
