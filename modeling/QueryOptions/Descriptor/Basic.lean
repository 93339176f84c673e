import QueryOptions.Node.Basic
import QueryOptions.Schema.Error

/-!
Descriptors: units of behaviour that are applied to a node while a schema is built. A declaration
is first read into a descriptor, which is where every error arises; applying a descriptor to a node
cannot fail.
-/

namespace QueryOptions

inductive Descriptor where
  | leaf (type : LeafType)
  | required
  | rename (target : Text)
  /-- Accepted for the sake of catalogs; values are not matched against it. -/
  | pattern
  | list (join : ListJoin) (block : List Descriptor)
  | structure (members : List (Text × List Descriptor))

namespace DescriptorKind

/-- The kind that a declared name stands for. -/
def resolve : Value → Except SchemaError DescriptorKind
  | .kind named => .ok named
  | .text [] => .error (.descriptorName (.text []))
  | .text name =>
      match ofName? (Naming.descriptorKey name) with
      | some kind => .ok kind
      | none => .error (.unknownDescriptor name)
  | given => .error (.descriptorName given)

/-- Whether an argument may stand, or be left out, on a descriptor of this kind. -/
def checkArgument (kind : DescriptorKind) (owner : Text) (argument : Value) :
    Except SchemaError Unit :=
  match kind.argumentMode, argument with
  | .required, .null => .error (.missingArgument kind owner)
  | .none, .null => .ok ()
  | .none, _ => .error (.unexpectedArgument kind owner)
  | _, _ => .ok ()

end DescriptorKind

namespace Descriptor

/-- A declared descriptor split into its kind and its argument, `null` where there is none. -/
def form : Value → Except SchemaError (DescriptorKind × Value)
  | .map [(name, argument)] => (DescriptorKind.resolve name).map fun kind => (kind, argument)
  | .map entries => .error (.descriptorEntries (.map entries))
  | name => (DescriptorKind.resolve name).map fun kind => (kind, .null)

/-- The descriptor of a name and an argument, given how the argument reads as a list of descriptors
and as the members of a structure. -/
def assemble (owner : Text) (name argument : Value)
    (block : Unit → Except SchemaError (List Descriptor))
    (members : Unit → Except SchemaError (List (Text × List Descriptor))) :
    Except SchemaError Descriptor := do
  let kind ← DescriptorKind.resolve name
  kind.checkArgument owner argument
  match kind with
  | .leaf type => return .leaf type
  | .required => return .required
  | .rename => return .rename argument.shown
  | .pattern => return .pattern
  | .list join => return .list join (← block ())
  | .structure => return .structure (← members ())

/-- A descriptor that is not a mapping of a name to an argument. -/
def bare (owner : Text) : Value → Except SchemaError Descriptor
  | .map entries => .error (.descriptorEntries (.map entries))
  | name => assemble owner name .null (fun _ => .ok []) (fun _ => .ok [])

/-- Whether an item can declare a structure member: a mapping of one entry, or a pair. -/
def isMemberEntry : Value → Bool
  | .map [_] => true
  | .list [_, _] => true
  | .tuple [_, _] => true
  | _ => false

/-- Every item has to declare a member before any of them is read. -/
def checkMemberEntries (owner : Text) (items : List Value) : Except SchemaError Unit :=
  match items.find? fun item => !isMemberEntry item with
  | some item => .error (.member owner item)
  | none => .ok ()

mutual

/-- Reads a list of descriptors, or a single one standing for a list; nothing at all is an empty
list. `owner` is the name that has the list and `inner` the one that its descriptors stand on. -/
def readBlock (owner inner : Text) : Value → Except SchemaError (List Descriptor)
  | .null => .ok []
  | .list items => readAll inner items
  | .tuple items => readAll inner items
  | .map [(name, argument)] => do
      let descriptor ← assemble inner name argument
        (fun _ => readBlock inner Node.listMemberName argument)
        (fun _ => readMembers inner argument)
      return [descriptor]
  | .map entries => .error (.descriptorEntries (.map entries))
  | .text content => do return [← bare inner (.text content)]
  | .kind named => do return [← bare inner (.kind named)]
  | given => .error (.descriptorList owner given)

def readAll (owner : Text) : List Value → Except SchemaError (List Descriptor)
  | [] => .ok []
  | .map [(name, argument)] :: rest => do
      let descriptor ← assemble owner name argument
        (fun _ => readBlock owner Node.listMemberName argument)
        (fun _ => readMembers owner argument)
      return descriptor :: (← readAll owner rest)
  | given :: rest => do
      let descriptor ← bare owner given
      return descriptor :: (← readAll owner rest)

def readMembers (owner : Text) : Value → Except SchemaError (List (Text × List Descriptor))
  | .map entries => readEntries entries
  | .list items => do
      checkMemberEntries owner items
      readItems items
  | .tuple items => do
      checkMemberEntries owner items
      readItems items
  | given => .error (.members owner given)

def readEntries : List (Value × Value) → Except SchemaError (List (Text × List Descriptor))
  | [] => .ok []
  | (name, declared) :: rest => do
      let block ← readBlock name.shown name.shown declared
      return (name.shown, block) :: (← readEntries rest)

def readItems : List Value → Except SchemaError (List (Text × List Descriptor))
  | [] => .ok []
  | .map [(name, declared)] :: rest => do
      let block ← readBlock name.shown name.shown declared
      return (name.shown, block) :: (← readItems rest)
  | .list [name, declared] :: rest => do
      let block ← readBlock name.shown name.shown declared
      return (name.shown, block) :: (← readItems rest)
  | .tuple [name, declared] :: rest => do
      let block ← readBlock name.shown name.shown declared
      return (name.shown, block) :: (← readItems rest)
  | _ :: rest => readItems rest

end

/-- Reads one declared descriptor. -/
def read (owner : Text) : Value → Except SchemaError Descriptor
  | .map [(name, argument)] =>
      assemble owner name argument
        (fun _ => readBlock owner Node.listMemberName argument)
        (fun _ => readMembers owner argument)
  | given => bare owner given

theorem readAll_cons (owner : Text) (given : Value) (rest : List Value) :
    readAll owner (given :: rest) = (do
      let descriptor ← read owner given
      return descriptor :: (← readAll owner rest)) := by
  unfold read
  split <;> simp_all [readAll]

end Descriptor

end QueryOptions
