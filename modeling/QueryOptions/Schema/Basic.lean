import QueryOptions.Node.Extend

/-!
Schemas: the options of one operation, built from declarations. A schema is never changed; to
customize it is to build a new one that starts with its nodes.
-/

namespace QueryOptions

/-- The nodes have distinct wire names when they come from `ofNodes` or `customize`. -/
structure Schema where
  options : List Node

namespace Schema

def empty : Schema := ⟨[]⟩

/-- Of nodes with one wire name the last counts, in the place of the first. -/
def ofNodes (nodes : List Node) : Schema :=
  ⟨nodes.foldl (fun options node => putNode node options) []⟩

instance : BEq Schema := ⟨fun left right => left.options == right.options⟩

def option? (schema : Schema) (binding : Text) : Option Node := findBinding? binding schema.options

def optionByWireName? (schema : Schema) (wire : Text) : Option Node :=
  findWire? wire schema.options

def size (schema : Schema) : Nat := schema.options.length

/-- The schema with the wire names of its options. -/
def toText (schema : Schema) : Text :=
  "Schema([" ++ Text.join ", " (schema.options.map fun node => node.wire.text) ++ "])"

end Schema

/-- One option as it is declared: its wire name and its descriptors, not yet read. -/
structure Declaration where
  name : WireName
  descriptors : List Value

namespace Declaration

/-- An entry of a mapping of names to descriptor lists. -/
def ofEntry (name description : Value) : Except SchemaError Declaration :=
  match description with
  | .null => .ok ⟨.plain name.shown, []⟩
  | .list descriptors => .ok ⟨.plain name.shown, descriptors⟩
  | .tuple descriptors => .ok ⟨.plain name.shown, descriptors⟩
  | given => .error (.description name.shown given)

/-- An option is declared by its bare name or by a mapping of its name to its descriptors. -/
def ofValue : Value → Except SchemaError Declaration
  | .map [] => .error .noEntry
  | .map [(name, description)] => ofEntry name description
  | .map _ => .error .manyEntries
  | .text [] => .error (.declaration (.text []))
  | .text name => .ok ⟨.plain name, []⟩
  | .kind named => .ok ⟨⟨named.name, named.symbol⟩, []⟩
  | given => .error (.declaration given)

/-- The declarations of a configuration: none, a mapping, or anything whose items are options,
texts and fixed byte strings excepted. -/
def ofConfiguration : Value → Except SchemaError (List Declaration)
  | .null => .ok []
  | .map entries => entries.mapM fun (name, description) => ofEntry name description
  | .text content => .error (.configuration (.text content))
  | .kind named => .error (.configuration (.kind named))
  | .bytes .fixed data => .error (.configuration (.bytes .fixed data))
  | given =>
      match given.items? with
      | some items => items.mapM ofValue
      | none => .error (.notIterable given)

end Declaration

namespace Schema

/-- Extends the option that a declaration names, or a new one. -/
def declare (schema : Schema) (declaration : Declaration) : Except SchemaError Schema := do
  let node := (schema.optionByWireName? declaration.name.text).getD (.default declaration.name)
  return ⟨putNode (← node.extendDeclared declaration.descriptors) schema.options⟩

/-- A new schema that starts from `base` and takes in the declarations of a configuration. All
declarations have to be well formed before the first one is taken in. -/
def customize (base : Schema) (configuration : Value) : Except SchemaError Schema := do
  (← Declaration.ofConfiguration configuration).foldlM declare base

end Schema

end QueryOptions
