import QueryOptions.Request.Error
import QueryOptions.Schema.Basic

/-!
Checking the options of a request against a schema. The check goes depth first and stops at the
first fault; the context of a fault nests the positions on the way to it. Absent required members
are looked for after all entries of a mapping have passed.
-/

namespace QueryOptions

/-- What a leaf expects. -/
def LeafType.expectation : LeafType → Expectation
  | .integer => .integer
  | .boolean => .boolean
  | _ => .string

/-- Checks a scalar value that stands at a context. -/
def LeafType.validate (leaf : LeafType) (value : Value) (context : Text) :
    Except OptionError Unit :=
  if leaf.accepts value then .ok () else .error (.format leaf.expectation context)

/-- The first required node whose binding name is not among the names supplied. -/
def findMissing? (nodes : List Node) (entries : List (Value × Value)) : Option Node :=
  nodes.find? fun node =>
    node.required && !entries.any fun (key, _) => key.shown == node.binding

def memberContext (index : Nat) (context : Text) : Text :=
  "member " ++ Text.ofNat index ++ " of " ++ context

def keyContext (name context : Text) : Text := "key " ++ name ++ " of " ++ context

/-- Checks elements in order, counting from `index`. -/
def validateElements (check : Value → Text → Except OptionError Unit) (context : Text) :
    Nat → List Value → Except OptionError Unit
  | _, [] => .ok ()
  | index, element :: rest => do
      check element (memberContext index context)
      validateElements check context (index + 1) rest

/-- Checks entries in order, each by the check that its key finds. -/
def validateEntries (check? : Text → Option (Value → Text → Except OptionError Unit))
    (context : Text) : List (Value × Value) → Except OptionError Unit
  | [] => .ok ()
  | (key, value) :: rest =>
      match check? key.shown with
      | none => .error (.unexpectedKey key.shown context)
      | some check => do
          check value (keyContext key.shown context)
          validateEntries check? context rest

namespace Node

mutual

/-- Checks a value that stands at `context`; an empty context is the top level. -/
def validate (node : Node) (value : Value) (outer : Text) : Except OptionError Unit :=
  match node with
  | .scalar heading leaf => leaf.validate value ((Node.scalar heading leaf).contextOr outer)
  | .list heading member join =>
      let context := (Node.list heading member join).contextOr outer
      match value.elements? with
      | none => .error (.format .enumerable context)
      | some elements =>
          validateElements (fun element => member.validate element) context 1 elements
  | .structure heading members =>
      let context := (Node.structure heading members).contextOr outer
      match value with
      | .map entries => do
          validateEntries (validateMember? members) context entries
          match findMissing? members entries with
          | some node => .error (.missingKey node.binding context)
          | none => .ok ()
      | _ => .error (.format .hash context)

/-- The check of the last member with a binding name. -/
def validateMember? (members : List Node) (binding : Text) :
    Option (Value → Text → Except OptionError Unit) :=
  match members with
  | [] => none
  | member :: rest =>
      match validateMember? rest binding with
      | some check => some check
      | none =>
          if member.binding == binding then some fun value context => member.validate value context
          else none

end

theorem validateMember?_eq_map (members : List Node) (binding : Text) :
    validateMember? members binding = (findBinding? binding members).map validate := by
  induction members with
  | nil => simp [validateMember?, findBinding?]
  | cons member rest ih =>
      unfold findBinding? at ih ⊢
      rw [validateMember?, ih]
      simp only [List.reverse_cons, List.find?_append]
      cases rest.reverse.find? fun node => node.binding == binding with
      | some node => simp
      | none =>
          by_cases same : member.binding == binding
          · simp [same]
          · simp [same]

end Node

namespace Schema

/-- Checks the options of a request: each one supplied, then whether a required one is absent. -/
def validate (schema : Schema) (options : Value) : Except OptionError Unit :=
  let rec supplied : List (Value × Value) → Except OptionError Unit
    | [] => .ok ()
    | (key, value) :: rest =>
        match schema.option? key.shown with
        | none => .error (.unexpectedOption (.text key.shown))
        | some node => do
            node.validate value []
            supplied rest
  match options with
  | .map entries => do
      supplied entries
      match findMissing? schema.options entries with
      | some node => .error (.missingOption node.binding)
      | none => .ok ()
  | _ => .error (.format .hash "options")

/-- Checks the value of one option, whatever else is supplied. -/
def validateOption (schema : Schema) (name value : Value) : Except OptionError Unit :=
  match name.text?.bind schema.option? with
  | none => .error (.unexpectedOption name)
  | some node => node.validate value []

end Schema

end QueryOptions
