import QueryOptions.Catalog.Basic
import QueryOptions.Lint.Finding

/-!
Naming of operations and options. Operations and options are to be named in upper camel case and
their binding names in snake case; two options of one level must not share a binding name, since the
first of them could not be reached. Findings of an operation stand where the operation does.
-/

namespace QueryOptions.NamingLint

/-- Findings about the names of one node. -/
def nameFindings (owner : Text) (location : SourceLocation) (node : Node) : List Finding :=
  let wireFindings : List Finding :=
    if Naming.isPascalCase node.wire.text then []
    else
      [.located .warning location
        ("Option name '" ++ node.wire.spelling ++ "' of " ++ owner ++
          " should be in PascalCase format (e.g., 'MaxResults', 'InstanceId')")]
  let bindingFindings : List Finding :=
    if Naming.isSnakeCase node.binding then []
    else
      [.located .warning location
        ("Binding name '" ++ node.binding ++ "' of option '" ++ node.wire.spelling ++ "' in " ++
          owner ++ " should be in snake_case format")]
  wireFindings ++ bindingFindings

/-- The finding about a node whose binding name an earlier node of its level has. -/
def sharedFindings (owner : Text) (location : SourceLocation) (earlier : List Node) (node : Node) :
    List Finding :=
  match findBinding? node.binding earlier with
  | some other =>
      [.located .error location
        ("Options '" ++ other.wire.spelling ++ "' and '" ++ node.wire.spelling ++ "' of " ++
          owner ++ " share the binding name '" ++ node.binding ++ "'")]
  | none => []

/-- How findings about the members of a structure name it. -/
def structureOwner (wire : WireName) (owner : Text) : Text :=
  "structure " ++ wire.spelling ++ " of " ++ owner

mutual

/-- Findings about the members of the structure that a node holds, perhaps as the member of a
list. `wire` names the structure. -/
def structureFindings (owner : Text) (location : SourceLocation) (wire : WireName) :
    Node → List Finding
  | .scalar _ _ => []
  | .list _ member _ => structureFindings owner location wire member
  | .structure _ members => levelFindings (structureOwner wire owner) location [] members

/-- Findings about the nodes of one level, of which some came earlier. -/
def levelFindings (owner : Text) (location : SourceLocation) (earlier : List Node) :
    List Node → List Finding
  | [] => []
  | node :: rest =>
      nameFindings owner location node ++ sharedFindings owner location earlier node ++
        structureFindings owner location node.wire node ++
        levelFindings owner location (earlier ++ [node]) rest

end

/-- Findings about an operation and its options. -/
def operationFindings (location : SourceLocation) (operation : Value) (schema : Schema) :
    List Finding :=
  let own : List Finding :=
    if operation.isPascalCase then []
    else
      [.located .warning location
        ("Operation name '" ++ operation.shown ++
          "' should be in PascalCase format (e.g., 'DescribeInstances', 'PutObject')")]
  own ++ levelFindings ("operation " ++ operation.shown) location [] schema.options

/-- Findings about all names of a catalog. -/
def findings (catalog : Catalog) (sources : Option SourceMap) : List Finding :=
  catalog.operations.flatMap fun (operation, schema) =>
    let pointer := OperationSource.pointer operation
    operationFindings (.locate sources (some pointer) catalog.file) operation schema

end QueryOptions.NamingLint
