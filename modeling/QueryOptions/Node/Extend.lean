import QueryOptions.Descriptor.Basic

/-!
Applying descriptors to nodes. Each application makes a new node; the heading is touched by
renaming and by the requirement only, the kind by all the others.
-/

namespace QueryOptions.Node

/-- The member that a list of descriptors extends: the one a list has already, or a fresh one. -/
def listMemberOf : Node → Node
  | .list _ member _ => member
  | _ => listMember

mutual

def apply (node : Node) : Descriptor → Node
  | .leaf type => .scalar node.heading type
  | .required => node.withHeading { node.heading with required := true }
  | .rename target =>
      node.withHeading { node.heading with binding := Naming.bindingName target }
  | .pattern => node
  | .list join block => .list node.heading (extend node.listMemberOf block) join
  | .structure members => .structure node.heading (extendMembers node.members members)

/-- The node after a list of descriptors, applied in their order. -/
def extend (node : Node) : List Descriptor → Node
  | [] => node
  | descriptor :: rest => extend (node.apply descriptor) rest

/-- Members declared again are extended in their place, new ones come last. -/
def extendMembers (known : List Node) : List (Text × List Descriptor) → List Node
  | [] => known
  | (name, block) :: rest =>
      let member := (findWire? name known).getD (default (.plain name))
      extendMembers (putNode (extend member block) known) rest

end

/-- Reads a descriptor and applies it. -/
def applyDeclared (node : Node) (declared : Value) : Except SchemaError Node :=
  (Descriptor.read node.wire.spelling declared).map node.apply

def extendDeclared (node : Node) (declared : List Value) : Except SchemaError Node :=
  (Descriptor.readAll node.wire.spelling declared).map node.extend

end QueryOptions.Node
