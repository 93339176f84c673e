import QueryOptions.Source.Location
import QueryOptions.Text.Quoted
import QueryOptions.Value.Written
import QueryOptions.Yaml.Marked

/-!
The node tree of a document: scalars, sequences and mappings with their tags and the marks at which
they begin. An alias is the node that its anchor names, mark and all. The source map of a document
and its value are both functions of this tree.
-/

namespace QueryOptions.Yaml

inductive Node where
  | scalar (tag text : Text) (mark : Mark)
  | sequence (tag : Text) (items : List Node) (mark : Mark)
  | mapping (tag : Text) (entries : List (Node × Node)) (mark : Mark)

namespace Node

def tag : Node → Text
  | .scalar tag _ _ => tag
  | .sequence tag _ _ => tag
  | .mapping tag _ _ => tag

def mark : Node → Mark
  | .scalar _ _ mark => mark
  | .sequence _ _ mark => mark
  | .mapping _ _ mark => mark

mutual

/-- The written form of a node, which is what a collection shows as a key of a pointer. -/
def written : Node → Text
  | .scalar tag text _ =>
      "ScalarNode(tag=" ++ tag.quoted ++ ", value=" ++ text.quoted ++ ")"
  | .sequence tag items _ =>
      "SequenceNode(tag=" ++ tag.quoted ++ ", value=[" ++
        Value.commaSeparated (writtenItems items) ++ "])"
  | .mapping tag entries _ =>
      "MappingNode(tag=" ++ tag.quoted ++ ", value=[" ++
        Value.commaSeparated (writtenEntries entries) ++ "])"

def writtenItems : List Node → List Text
  | [] => []
  | item :: rest => item.written :: writtenItems rest

def writtenEntries : List (Node × Node) → List Text
  | [] => []
  | (key, value) :: rest =>
      ("(" ++ key.written ++ ", " ++ value.written ++ ")") :: writtenEntries rest

end

/-- The token that a key puts into pointers: the text of a scalar, as it stands in the document. -/
def pointerToken : Node → Text
  | .scalar _ text _ => text
  | .sequence _ items _ => "[" ++ Value.commaSeparated (writtenItems items) ++ "]"
  | .mapping _ entries _ => "[" ++ Value.commaSeparated (writtenEntries entries) ++ "]"

def position (node : Node) : Position := ⟨some (node.mark.line + 1), some (node.mark.column + 1)⟩

mutual

/-- The pointers of a node and of all nodes below it with their positions, a node before what it
holds. -/
def places (pointer : Text) : Node → List (Text × Position)
  | .scalar tag text mark => [(pointer, (Node.scalar tag text mark).position)]
  | .sequence tag items mark =>
      (pointer, (Node.sequence tag items mark).position) :: placesOfItems pointer 0 items
  | .mapping tag entries mark =>
      (pointer, (Node.mapping tag entries mark).position) :: placesOfEntries pointer entries

def placesOfItems (pointer : Text) (index : Nat) : List Node → List (Text × Position)
  | [] => []
  | item :: rest =>
      places (Pointer.append pointer (Text.ofNat index)) item ++
        placesOfItems pointer (index + 1) rest

def placesOfEntries (pointer : Text) : List (Node × Node) → List (Text × Position)
  | [] => []
  | (key, value) :: rest =>
      places (Pointer.append pointer key.pointerToken) value ++ placesOfEntries pointer rest

end

/-- A pointer met again keeps its place and takes the later position. -/
def sourceMap (root : Node) : SourceMap := Entries.ofPairs (root.places [])

end Node

end QueryOptions.Yaml
