import QueryOptions.Text.Line

/-!
The closed set of descriptors, their names and how many arguments each takes.
-/

namespace QueryOptions

/-- The wire type of a scalar option. -/
inductive LeafType where
  | string
  | integer
  | boolean
  | blob
  | timestamp
deriving DecidableEq, Repr

/-- What stands between a list's name and the number of an element. -/
inductive ListJoin where
  | flat
  | membered
deriving DecidableEq, Repr

def ListJoin.text : ListJoin → Text
  | .flat => "."
  | .membered => ".member."

inductive DescriptorKind where
  | leaf (type : LeafType)
  | required
  | rename
  | pattern
  | list (join : ListJoin)
  | structure : DescriptorKind
deriving DecidableEq, Repr

inductive ArgumentMode where
  | none
  | required
  | optional
deriving DecidableEq, Repr

namespace DescriptorKind

/-- All kinds in the order in which they are listed to users. -/
def all : List DescriptorKind :=
  [.leaf .string, .leaf .integer, .leaf .boolean, .leaf .blob, .leaf .timestamp, .required,
    .rename, .pattern, .list .flat, .list .membered, .structure]

def name : DescriptorKind → Text
  | .leaf .string => "String"
  | .leaf .integer => "Integer"
  | .leaf .boolean => "Boolean"
  | .leaf .blob => "Blob"
  | .leaf .timestamp => "Timestamp"
  | .required => "Required"
  | .rename => "Rename"
  | .pattern => "Pattern"
  | .list .flat => "List"
  | .list .membered => "MemberedList"
  | .structure => "Structure"

/-- The name of the member that stands for the kind where values are written out. -/
def symbol : DescriptorKind → Text
  | .leaf .string => "DescriptorKind.STRING"
  | .leaf .integer => "DescriptorKind.INTEGER"
  | .leaf .boolean => "DescriptorKind.BOOLEAN"
  | .leaf .blob => "DescriptorKind.BLOB"
  | .leaf .timestamp => "DescriptorKind.TIMESTAMP"
  | .required => "DescriptorKind.REQUIRED"
  | .rename => "DescriptorKind.RENAME"
  | .pattern => "DescriptorKind.PATTERN"
  | .list .flat => "DescriptorKind.LIST"
  | .list .membered => "DescriptorKind.MEMBERED_LIST"
  | .structure => "DescriptorKind.STRUCTURE"

theorem isLine_name (kind : DescriptorKind) : Text.IsLine kind.name := by
  cases kind with
  | leaf type => cases type <;> decide
  | list join => cases join <;> decide
  | _ => decide

theorem isLine_symbol (kind : DescriptorKind) : Text.IsLine kind.symbol := by
  cases kind with
  | leaf type => cases type <;> decide
  | list join => cases join <;> decide
  | _ => decide

def ofName? (name : Text) : Option DescriptorKind := all.find? fun kind => kind.name == name

def argumentMode : DescriptorKind → ArgumentMode
  | .leaf _ => .none
  | .required => .none
  | .pattern => .optional
  | .rename => .required
  | .list _ => .required
  | .structure => .required

end DescriptorKind

end QueryOptions
