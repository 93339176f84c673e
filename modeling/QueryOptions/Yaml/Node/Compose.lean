import QueryOptions.Yaml.Node
import QueryOptions.Yaml.Tag
import QueryOptions.Yaml.Token.Stream

/-!
Building the node tree of a document from its tokens, by recursive descent. Where a collection
leaves a node out, an empty plain scalar stands for it. Anchors name the nodes read so far; a
document has one root and a stream has at most one document.
-/

namespace QueryOptions.Yaml

/-- The tokens left, what is wrong after them, the handles of tags and the nodes with anchors. The
node of an anchor is missing while it is being read. -/
structure ComposeState where
  tokens : List Token
  failure : Error
  handles : List (Text × Text)
  anchors : List (Text × Option Node)

abbrev Compose := StateT ComposeState (Except Error)

namespace Compose

def peek : Compose Token := do
  let state ← get
  match state.tokens with
  | [] => throw state.failure
  | token :: _ => return token

def take : Compose Token := do
  let token ← peek
  modify fun state => { state with tokens := state.tokens.drop 1 }
  return token

def peekKind : Compose Token.Kind := do return (← peek).kind

/-- Takes a token of one kind and refuses any other. -/
def expect (kind : Token.Kind) : Compose Token := do
  let token ← take
  if token.kind = kind then return token else throw .malformed

/-- Takes a token of one kind if it is next. -/
def skipIf (kind : Token.Kind) : Compose Bool := do
  if (← peekKind) = kind then
    let _ ← take
    return true
  else return false

def isOneOf (kinds : List Token.Kind) : Compose Bool := do return kinds.elem (← peekKind)

def emptyScalar (mark : Mark) : Node := .scalar Tag.null [] mark

/-- What stands before a node: its anchor, its tag, and where they begin. -/
structure Properties where
  anchor : Option Text
  tag : Option Text
  start : Option Mark

def expandTag (handle : Option Text) (suffix : Text) : Compose Text := do
  match handle with
  | none => return suffix
  | some handle =>
      match (← get).handles.lookup handle with
      | some stem => return stem ++ suffix
      | none => throw .malformed

def anchorProperty? : Compose (Option (Text × Mark)) := do
  match (← peek).kind with
  | .anchor name =>
      let token ← take
      return some (name, token.start)
  | _ => return none

def tagProperty? : Compose (Option ((Option Text × Text) × Mark)) := do
  match (← peek).kind with
  | .tag handle suffix =>
      let token ← take
      return some ((handle, suffix), token.start)
  | _ => return none

/-- An anchor and a tag in either order, both of which may be missing. -/
def properties : Compose Properties := do
  let leading ← anchorProperty?
  let tag ← tagProperty?
  let anchor ← match leading with
    | some found => pure (some found)
    | none => if tag.isSome then anchorProperty? else pure none
  let expanded ← tag.mapM fun ((handle, suffix), _) => expandTag handle suffix
  let start :=
    match leading, tag with
    | some (_, mark), _ => some mark
    | none, some (_, mark) => some mark
    | none, none => none
  return ⟨anchor.map (·.1), expanded, start⟩

/-- A tag that says nothing leaves the choice to the form of the node. -/
def tagOr (tag : Option Text) (resolved : Text) : Text :=
  match tag with
  | none => resolved
  | some tag => if tag = Text.ofString "!" then resolved else tag

def scalarTag (tag : Option Text) (text : Text) (plain : Bool) : Text :=
  tagOr tag (if plain || tag.isSome then resolvePlain text else Tag.string)

def putAnchor (name : Text) (node : Option Node) : Compose Unit :=
  modify fun state => { state with anchors := (name, node) :: state.anchors }

/-- Declares an anchor; it is given once in a document. -/
def openAnchor (anchor : Option Text) : Compose Unit := do
  match anchor with
  | some name =>
      if ((← get).anchors.lookup name).isSome then throw .malformed
      putAnchor name none
  | none => return ()

def closeAnchor (anchor : Option Text) (node : Node) : Compose Unit := do
  match anchor with
  | some name => putAnchor name (some node)
  | none => return ()

/-- Where a node may stand: block collections only in block context, and a sequence without
indentation of its own only as a key or value of a block mapping. -/
inductive Context where
  | flow
  | block
  | blockOrIndentless
deriving DecidableEq

def endsIndentless : List Token.Kind := [.blockEntry, .key, .value, .blockEnd]

def endsMappingPart : List Token.Kind := [.key, .value, .blockEnd]

mutual

/-- Reads one node. The fuel bounds the depth and the number of steps. -/
def node : Nat → Context → Compose Node
  | 0, _ => throw .malformed
  | fuel + 1, context => do
      match (← peek).kind with
      | .alias name =>
          let _ ← take
          match (← get).anchors.lookup name with
          | some (some node) => return node
          | _ => throw .malformed
      | _ =>
          let properties ← properties
          let token ← peek
          let start := properties.start.getD token.start
          let inBlock := context ≠ .flow
          openAnchor properties.anchor
          let sequence := fun items =>
            Node.sequence (tagOr properties.tag Tag.sequence) items start
          let mapping := fun entries =>
            Node.mapping (tagOr properties.tag Tag.mapping) entries start
          let node ←
            match token.kind with
            | .scalar text plain =>
                let _ ← take
                pure (Node.scalar (scalarTag properties.tag text plain) text start)
            | .flowSequenceStart =>
                let _ ← take
                sequence <$> flowItems fuel true
            | .flowMappingStart =>
                let _ ← take
                mapping <$> flowEntries fuel true
            | kind =>
                if kind = .blockEntry && context = .blockOrIndentless then
                  sequence <$> indentlessItems fuel
                else if kind = .blockSequenceStart && inBlock then
                  let _ ← take
                  sequence <$> blockItems fuel
                else if kind = .blockMappingStart && inBlock then
                  let _ ← take
                  mapping <$> blockEntries fuel
                else if properties.anchor.isSome || properties.tag.isSome then
                  pure (Node.scalar (scalarTag properties.tag [] true) [] start)
                else throw .malformed
          closeAnchor properties.anchor node
          return node

/-- The items of a block sequence up to its end. -/
def blockItems : Nat → Compose (List Node)
  | 0 => throw .malformed
  | fuel + 1 => do
      if (← peekKind) = .blockEntry then
        let entry ← take
        let item ←
          if ← isOneOf [.blockEntry, .blockEnd] then pure (emptyScalar entry.finish)
          else node fuel .block
        return item :: (← blockItems fuel)
      else
        let _ ← expect .blockEnd
        return []

/-- The items of a sequence that stands no deeper than the mapping around it. -/
def indentlessItems : Nat → Compose (List Node)
  | 0 => throw .malformed
  | fuel + 1 => do
      if (← peekKind) = .blockEntry then
        let entry ← take
        let item ←
          if ← isOneOf endsIndentless then pure (emptyScalar entry.finish)
          else node fuel .block
        return item :: (← indentlessItems fuel)
      else return []

/-- The entries of a block mapping up to its end; a key or a value may be missing. -/
def blockEntries : Nat → Compose (List (Node × Node))
  | 0 => throw .malformed
  | fuel + 1 => do
      match (← peek).kind with
      | .key =>
          let indicator ← take
          let key ←
            if ← isOneOf endsMappingPart then pure (emptyScalar indicator.finish)
            else node fuel .blockOrIndentless
          let value ← blockValue fuel
          return (key, value) :: (← blockEntries fuel)
      | _ =>
          let _ ← expect .blockEnd
          return []

/-- The value after a key of a block mapping. -/
def blockValue : Nat → Compose Node
  | 0 => throw .malformed
  | fuel + 1 => do
      match (← peek).kind with
      | .value =>
          let indicator ← take
          if ← isOneOf endsMappingPart then return emptyScalar indicator.finish
          else node fuel .blockOrIndentless
      | _ => return emptyScalar (← peek).start

/-- The items of a flow sequence up to its bracket; an item may be a mapping of one entry. -/
def flowItems : Nat → Bool → Compose (List Node)
  | 0, _ => throw .malformed
  | fuel + 1, isFirst => do
      if ← skipIf .flowSequenceEnd then return []
      if !isFirst then
        let _ ← expect .flowEntry
      match (← peek).kind with
      | .key =>
          let indicator ← take
          let key ←
            if ← isOneOf [.value, .flowEntry, .flowSequenceEnd] then
              pure (emptyScalar indicator.finish)
            else node fuel .flow
          let value ← flowValue fuel [.flowEntry, .flowSequenceEnd]
          let item := Node.mapping Tag.mapping [(key, value)] indicator.start
          return item :: (← flowItems fuel false)
      | _ =>
          if ← skipIf .flowSequenceEnd then return []
          let item ← node fuel .flow
          return item :: (← flowItems fuel false)

/-- The entries of a flow mapping up to its brace; a lone node is a key without value. -/
def flowEntries : Nat → Bool → Compose (List (Node × Node))
  | 0, _ => throw .malformed
  | fuel + 1, isFirst => do
      if ← skipIf .flowMappingEnd then return []
      if !isFirst then
        let _ ← expect .flowEntry
      match (← peek).kind with
      | .key =>
          let indicator ← take
          let key ←
            if ← isOneOf [.value, .flowEntry, .flowMappingEnd] then
              pure (emptyScalar indicator.finish)
            else node fuel .flow
          let value ← flowValue fuel [.flowEntry, .flowMappingEnd]
          return (key, value) :: (← flowEntries fuel false)
      | _ =>
          if ← skipIf .flowMappingEnd then return []
          let key ← node fuel .flow
          let value := emptyScalar (← peek).start
          return (key, value) :: (← flowEntries fuel false)

/-- The value after a key of a flow collection; the kinds given end the entry. -/
def flowValue : Nat → List Token.Kind → Compose Node
  | 0, _ => throw .malformed
  | fuel + 1, ends => do
      match (← peek).kind with
      | .value =>
          let indicator ← take
          if ← isOneOf ends then return emptyScalar indicator.finish else node fuel .flow
      | _ => return emptyScalar (← peek).start

end

/-! ## Documents -/

/-- The handles that every document knows. -/
def standardHandles : List (Text × Text) :=
  [("!", "!"), ("!!", Tag.standard [])]

/-- Reads directives; at most one version, and that of the first major line, and each handle
once. -/
def directives : Nat → Bool → List (Text × Text) → Compose (List (Text × Text))
  | 0, _, _ => throw .malformed
  | fuel + 1, versioned, handles => do
      match (← peek).kind with
      | .version major =>
          let _ ← take
          if versioned || major ≠ 1 then throw .malformed
          directives fuel true handles
      | .tagHandle handle stem =>
          let _ ← take
          if (handles.lookup handle).isSome then throw .malformed
          directives fuel versioned (handles ++ [(handle, stem)])
      | .unknownDirective =>
          let _ ← take
          directives fuel versioned handles
      | _ => return handles

def skipDocumentEnds : Nat → Compose Unit
  | 0 => throw .malformed
  | fuel + 1 => do
      if ← skipIf .documentEnd then skipDocumentEnds fuel

def isDirective : Token.Kind → Bool
  | .version _ => true
  | .tagHandle _ _ => true
  | .unknownDirective => true
  | _ => false

/-- The root of a document that begins with a separator. -/
def explicitRoot (fuel : Nat) : Compose Node := do
  let handles ← directives fuel false []
  modify fun state => { state with handles := handles ++ standardHandles }
  let _ ← expect .documentStart
  let token ← peek
  if isDirective token.kind || [Token.Kind.documentStart, .documentEnd, .streamEnd].elem token.kind
  then return emptyScalar token.start
  else node fuel .block

/-- The root of the only document, if there is a document. -/
def document? (fuel : Nat) : Compose (Option Node) := do
  let token ← peek
  let root ←
    if isDirective token.kind || token.kind = .documentStart then some <$> explicitRoot fuel
    else if token.kind = .streamEnd then pure none
    else some <$> node fuel .block
  if root.isSome then
    let _ ← skipIf .documentEnd
    skipDocumentEnds fuel
  let _ ← expect .streamEnd
  return root

end Compose

/-- The node tree of a text, none for a text without a document. -/
def Node.ofText? (text : Text) : Except Error (Option Node) :=
  let stream := TokenStream.ofText text
  let start : ComposeState :=
    { tokens := stream.tokens
      failure := stream.failure
      handles := Compose.standardHandles
      anchors := [] }
  (Compose.document? (4 * stream.tokens.length + 4)).run' start

end QueryOptions.Yaml
