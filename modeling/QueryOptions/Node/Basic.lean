import QueryOptions.Naming
import QueryOptions.Leaf
import QueryOptions.Param

/-!
Nodes: the compiled form of one option. A node is a scalar, a list with a member node, or a
structure with member nodes; every node has a heading with its names and whether it is required.
-/

namespace QueryOptions

/-- What a node of any kind has: the name sent, the name that callers use, and whether a value must
be supplied. -/
structure Heading where
  wire : WireName
  binding : Text
  required : Bool
deriving Repr

instance : BEq Heading :=
  ⟨fun left right =>
    left.wire == right.wire && left.binding == right.binding && left.required == right.required⟩

inductive Node where
  | scalar (heading : Heading) (leaf : LeafType)
  | list (heading : Heading) (member : Node) (join : ListJoin)
  | structure (heading : Heading) (members : List Node)

namespace Node

def heading : Node → Heading
  | .scalar heading _ => heading
  | .list heading _ _ => heading
  | .structure heading _ => heading

def wire (node : Node) : WireName := node.heading.wire

def binding (node : Node) : Text := node.heading.binding

def required (node : Node) : Bool := node.heading.required

def withHeading (heading : Heading) : Node → Node
  | .scalar _ leaf => .scalar heading leaf
  | .list _ member join => .list heading member join
  | .structure _ members => .structure heading members

/-- A plain, optional string option. -/
def default (wire : WireName) : Node := .scalar ⟨wire, Naming.bindingName wire.text, false⟩ .string

def listMemberName : Text := "##list-member##"

/-- The node that every list starts with; it is never looked up by name. -/
def listMember : Node := .scalar ⟨.plain listMemberName, listMemberName, false⟩ .string

instance : Inhabited Node := ⟨listMember⟩

def isScalar : Node → Bool
  | .scalar _ _ => true
  | _ => false

def isList : Node → Bool
  | .list _ _ _ => true
  | _ => false

def isStructure : Node → Bool
  | .structure _ _ => true
  | _ => false

/-- The members of a structure; other nodes have none. -/
def members : Node → List Node
  | .structure _ members => members
  | _ => []

mutual

def beq : Node → Node → Bool
  | .scalar leftHeading left, .scalar rightHeading right =>
      leftHeading == rightHeading && left == right
  | .list leftHeading left leftJoin, .list rightHeading right rightJoin =>
      leftHeading == rightHeading && left.beq right && leftJoin == rightJoin
  | .structure leftHeading left, .structure rightHeading right =>
      leftHeading == rightHeading && beqAll left right
  | _, _ => false

def beqAll : List Node → List Node → Bool
  | [], [] => true
  | left :: lefts, right :: rights => left.beq right && beqAll lefts rights
  | _, _ => false

end

instance : BEq Node := ⟨beq⟩

/-- Where an error is said to be: the context given, or the option itself at the top level. -/
def contextOr (node : Node) (context : Text) : Text :=
  if context.isEmpty then "option " ++ node.binding else context

end Node

/-- The last of the nodes with a binding name: later nodes hide earlier ones. -/
def findBinding? (binding : Text) (nodes : List Node) : Option Node :=
  nodes.reverse.find? fun node => node.binding == binding

/-- The node with a wire name. -/
def findWire? (wire : Text) (nodes : List Node) : Option Node :=
  nodes.reverse.find? fun node => node.wire.text == wire

/-- The nodes with one node put in: in the place of the node with the same wire name, else last. -/
def putNode (node : Node) : List Node → List Node
  | [] => [node]
  | known :: rest =>
      if known.wire == node.wire then node :: rest else known :: putNode node rest

end QueryOptions
