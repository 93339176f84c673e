import QueryOptions.Request.Validation

/-!
Flattening the options of a request into parameters. A structure appends a dot and the member's wire
name to the name of its value, a list its join and the number of the element; a list below which
nothing is emitted leaves an empty parameter of its own name. Parameters come in the order in which
the caller gave the entries.
-/

namespace QueryOptions

/-- The number that stands for an element in names, counted from 1. -/
def elementName (name : WireName) (join : ListJoin) (index : Nat) : WireName :=
  .plain (name.spelling ++ join.text ++ Text.ofNat index)

def memberName (name member : WireName) : WireName :=
  .plain (name.spelling ++ "." ++ member.spelling)

/-- The parameters of elements in order, counting from `index`. -/
def paramsOfElements (encode : Value → WireName → Option (List Param)) (name : WireName)
    (join : ListJoin) : Nat → List Value → Option (List Param)
  | _, [] => some []
  | index, element :: rest => do
      let first ← encode element (elementName name join index)
      return first ++ (← paramsOfElements encode name join (index + 1) rest)

/-- The parameters of entries in order, each by the encoder that its key finds. -/
def paramsOfEntries (encode? : Text → Option (Value → Option (List Param))) :
    List (Value × Value) → Option (List Param)
  | [] => some []
  | (key, value) :: rest => do
      let encode ← encode? key.shown
      let first ← encode value
      return first ++ (← paramsOfEntries encode? rest)

namespace Node

mutual

/-- The parameters of a value under a name. A value that the node does not accept may have none. -/
def params? (codec : BlobCodec) (node : Node) (value : Value) (name : WireName) :
    Option (List Param) :=
  match node with
  | .scalar _ leaf => (leaf.encode? codec value).map fun text => [⟨name, text⟩]
  | .list _ member join => do
      let elements ← value.elements?
      let encode (element : Value) := member.params? codec element
      let params ← paramsOfElements encode name join 1 elements
      return if params.isEmpty then [⟨name, []⟩] else params
  | .structure _ members =>
      match value with
      | .map entries => paramsOfEntries (memberParams? codec members name) entries
      | _ => none

/-- The encoder of the last member with a binding name, under the name of the structure. -/
def memberParams? (codec : BlobCodec) (members : List Node) (name : WireName) (binding : Text) :
    Option (Value → Option (List Param)) :=
  match members with
  | [] => none
  | member :: rest =>
      match memberParams? codec rest name binding with
      | some encode => some encode
      | none =>
          if member.binding == binding then
            some fun value => member.params? codec value (memberName name member.wire)
          else none

end

theorem memberParams?_eq_map (codec : BlobCodec) (members : List Node) (name : WireName)
    (binding : Text) :
    memberParams? codec members name binding = (findBinding? binding members).map fun member =>
      fun value => member.params? codec value (memberName name member.wire) := by
  induction members with
  | nil => simp [memberParams?, findBinding?]
  | cons member rest ih =>
      unfold findBinding? at ih ⊢
      rw [memberParams?, ih]
      simp only [List.reverse_cons, List.find?_append]
      cases rest.reverse.find? fun node => node.binding == binding with
      | some node => simp
      | none =>
          by_cases same : member.binding == binding
          · simp [same]
          · simp [same]

end Node

/-- What becomes of a request that yields no parameters. -/
inductive RequestError where
  | invalid (error : OptionError)
  | unencodable

namespace Schema

/-- The parameters of options that have been checked. -/
def params? (codec : BlobCodec) (schema : Schema) (options : List (Value × Value)) :
    Option (List Param) :=
  paramsOfEntries
    (fun binding => (schema.option? binding).map fun node =>
      fun value => node.params? codec value node.wire)
    options

/-- Checks the options of a request and flattens them; nothing is encoded if the check fails. -/
def requestParams (codec : BlobCodec) (schema : Schema) (options : Value) :
    Except RequestError (List Param) :=
  match schema.validate options, options with
  | .error error, _ => .error (.invalid error)
  | .ok (), .map entries =>
      match schema.params? codec entries with
      | some params => .ok params
      | none => .error .unencodable
  | .ok (), _ => .error .unencodable

end Schema

end QueryOptions
