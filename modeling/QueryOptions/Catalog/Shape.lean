import QueryOptions.Catalog.Version
import QueryOptions.Entries
import QueryOptions.Sorting
import QueryOptions.Source.Pointer
import QueryOptions.Value.Written

/-!
The shape of catalog documents: which fields they have and how options are declared in them. A
document is checked as a whole and every violation is an issue; the parts of one operation are
judged together, so that a misshapen operation is one issue.
-/

namespace QueryOptions

/-- A violation, with the keys on the way to it. -/
structure ShapeIssue where
  message : Text
  tokens : List Text

def ShapeIssue.pointer (issue : ShapeIssue) : Text := Pointer.ofTokens issue.tokens

namespace Shape

private def field? (name : Text) (entries : List (Value × Value)) : Option Value :=
  Entries.find? (.text name) entries

private def isNonEmptyText (value : Value) : Bool := value.text?.any fun text => !text.isEmpty

/-- A name, or a mapping of a name to an argument of any kind. -/
def isDescriptor : Value → Bool
  | .map entries => entries.length = 1
  | value => isNonEmptyText value

def isDescriptorList : Value → Bool
  | .list items => items.all isDescriptor
  | _ => false

/-- A name, or a mapping of a name to descriptors or to nothing. -/
def isOption : Value → Bool
  | .map [(_, .null)] => true
  | .map [(_, descriptors)] => isDescriptorList descriptors
  | .map _ => false
  | value => isNonEmptyText value

def isOptionList : Value → Bool
  | .list items => items.all isOption
  | _ => false

private def operationFields : List Text := ["base", "description", "options"]

/-- A list of options, or a mapping that may also name a base and carry a description. -/
def isOperation : Value → Bool
  | .map entries =>
      (field? "options" entries).any isOptionList &&
        (field? "base" entries).all isNonEmptyText &&
        (field? "description" entries).all Value.isText &&
        entries.all fun (key, _) => key.text?.any operationFields.elem
  | value => isOptionList value

theorem isText_of_base {entries : List (Value × Value)} {base : Value}
    (shaped : isOperation (.map entries) = true)
    (given : Entries.find? (.text "base") entries = some base) : base.isText = true := by
  simp only [isOperation, field?, given, Option.all_some, Bool.and_eq_true] at shaped
  obtain ⟨⟨⟨-, named⟩, -⟩, -⟩ := shaped
  cases base with
  | text _ => rfl
  | kind _ => rfl
  | _ => contradiction

/-- The fields that a document may have. -/
def documentFields : List Text :=
  [FormatVersion.field, "name", "description", "operations"]

private def missingFields (entries : List (Value × Value)) : List ShapeIssue :=
  let required : List Text := ["name", "operations"]
  (required.filter fun name => (field? name entries).isNone).map fun name =>
    ⟨name.quoted ++ " is a required property", []⟩

/-- All unknown fields make one issue; they are named in the order of their texts. -/
private def unknownFields (entries : List (Value × Value)) : List ShapeIssue :=
  let unknown := (entries.map (·.1)).filter fun key => !key.text?.any documentFields.elem
  let named := Sorting.sort (fun left right => left.shown.le right.shown) unknown
  match named with
  | [] => []
  | _ =>
      let verb : Text := if named.length = 1 then "was" else "were"
      [⟨"Additional properties are not allowed (" ++
        Value.commaSeparated (named.map Value.written) ++ " " ++ verb ++ " unexpected)", []⟩]

private def notOfType (type : Text) (value : Value) (tokens : List Text) : List ShapeIssue :=
  [⟨value.written ++ " is not of type " ++ type.quoted, tokens⟩]

private def textIssues (name : Text) (entries : List (Value × Value)) : List ShapeIssue :=
  match field? name entries with
  | none => []
  | some value => if value.isText then [] else notOfType "string" value [name]

private def nameIssues (entries : List (Value × Value)) : List ShapeIssue :=
  match (field? "name" entries).bind Value.text? with
  | some [] => [⟨(Text.quoted []) ++ " should be non-empty", ["name"]⟩]
  | _ => textIssues "name" entries

/-- The way to an operation; a name that is null is no step on it. -/
def operationTokens : Value → List Text
  | .null => ["operations"]
  | name => ["operations", name.shown]

private def operationIssues (entries : List (Value × Value)) : List ShapeIssue :=
  match field? "operations" entries with
  | none => []
  | some (.map operations) =>
      (operations.filter fun (_, operation) => !isOperation operation).map fun (name, operation) =>
        ⟨operation.written ++ " is not valid under any of the given schemas",
          operationTokens name⟩
  | some value => notOfType "object" value ["operations"]

/-- Every violation of the shape, in the order of the keys on the way to them. -/
def issues : Value → List ShapeIssue
  | .map entries =>
      Sorting.sort (fun left right => Text.listLe left.tokens right.tokens)
        (missingFields entries ++ unknownFields entries ++
          textIssues FormatVersion.field entries ++ nameIssues entries ++
          textIssues "description" entries ++ operationIssues entries)
  | value => notOfType "object" value []

/-- What an issue of a value says, and where: about the value as a whole, about a field or about an
operation. -/
inductive Wording : Value → ShapeIssue → Prop
  | noMapping {value : Value} (other : ∀ entries, value ≠ .map entries) :
      Wording value ⟨value.written ++ " is not of type " ++ Text.quoted "object", []⟩
  | missing {entries : List (Value × Value)} {name : Text}
      (required : name ∈ (["name", "operations"] : List Text)) :
      Wording (.map entries) ⟨name.quoted ++ " is a required property", []⟩
  | unknown {entries : List (Value × Value)} {keys : List Value} {verb : Text}
      (given : ∀ key ∈ keys, key ∈ entries.map (·.1)) (spelled : verb = "was" ∨ verb = "were") :
      Wording (.map entries) ⟨"Additional properties are not allowed (" ++
        Value.commaSeparated (keys.map Value.written) ++ " " ++ verb ++ " unexpected)", []⟩
  | field {entries : List (Value × Value)} {name type : Text} {value : Value}
      (known : name ∈ documentFields) (given : Entries.find? (.text name) entries = some value) :
      Wording (.map entries) ⟨value.written ++ " is not of type " ++ type.quoted, [name]⟩
  | emptyName {entries : List (Value × Value)} {value : Value}
      (given : Entries.find? (.text "name") entries = some value) :
      Wording (.map entries) ⟨Text.quoted [] ++ " should be non-empty", ["name"]⟩
  | operation {entries operations : List (Value × Value)} {declared : Value × Value}
      (given : Entries.find? (.text "operations") entries = some (.map operations))
      (inside : declared ∈ operations) :
      Wording (.map entries) ⟨declared.2.written ++ " is not valid under any of the given schemas",
        operationTokens declared.1⟩

theorem wording_of_mem_issues {value : Value} {issue : ShapeIssue} (found : issue ∈ issues value) :
    Wording value issue := by
  unfold issues at found
  split at found
  case h_2 other =>
    rw [List.mem_singleton.mp found]
    exact .noMapping other
  rename_i entries
  have ofText : ∀ name ∈ documentFields, issue ∈ textIssues name entries →
      Wording (.map entries) issue := by
    intro name known found
    unfold textIssues field? at found
    split at found
    · contradiction
    · rename_i value given
      split at found
      · contradiction
      · rw [List.mem_singleton.mp found]
        exact .field known given
  simp only [(Sorting.sort_perm _ _).mem_iff, List.mem_append] at found
  rcases found with ((((missing | unknown) | version) | name) | description) | operation
  · obtain ⟨name, absent, rfl⟩ := List.mem_map.mp missing
    exact .missing (List.mem_filter.mp absent).1
  · unfold unknownFields at unknown
    dsimp only at unknown
    split at unknown
    · contradiction
    · rw [List.mem_singleton.mp unknown]
      refine .unknown (fun key inside => ?_) ?_
      · exact (List.mem_filter.mp ((Sorting.sort_perm _ _).mem_iff.mp inside)).1
      · split
        · exact .inl rfl
        · exact .inr rfl
  · exact ofText _ List.mem_cons_self version
  · unfold nameIssues at name
    split at name
    · rename_i empty
      obtain ⟨value, given, -⟩ := Option.bind_eq_some_iff.mp empty
      rw [List.mem_singleton.mp name]
      exact .emptyName given
    · exact ofText _ (by simp [documentFields]) name
  · exact ofText _ (by simp [documentFields]) description
  · unfold operationIssues field? at operation
    split at operation
    · contradiction
    · rename_i operations given
      obtain ⟨declared, misshapen, rfl⟩ := List.mem_map.mp operation
      exact .operation given (List.mem_filter.mp misshapen).1
    · rename_i value _ given
      rw [List.mem_singleton.mp operation]
      exact .field (by simp [documentFields]) given

/-- An issue is about the document, about a field of it or about an operation. -/
theorem tokens_of_mem_issues {value : Value} {issue : ShapeIssue} (found : issue ∈ issues value) :
    issue.tokens = [] ∨ ∃ entries, value = .map entries ∧
      ((∃ name field, Entries.find? (.text name) entries = some field ∧ issue.tokens = [name]) ∨
      ∃ operations operation, Entries.find? (.text "operations") entries = some (.map operations) ∧
        operation ∈ operations ∧ issue.tokens = operationTokens operation.1) := by
  cases wording_of_mem_issues found with
  | noMapping => exact .inl rfl
  | missing => exact .inl rfl
  | unknown => exact .inl rfl
  | field _ given => exact .inr ⟨_, rfl, .inl ⟨_, _, given, rfl⟩⟩
  | emptyName given => exact .inr ⟨_, rfl, .inl ⟨_, _, given, rfl⟩⟩
  | operation given inside => exact .inr ⟨_, rfl, .inr ⟨_, _, given, inside, rfl⟩⟩

/-- A document of the right shape has operations, and they are of the right shape. -/
theorem exists_operations {entries : List (Value × Value)} (shaped : issues (.map entries) = []) :
    ∃ operations, Entries.find? (.text "operations") entries = some (.map operations) ∧
      ∀ operation ∈ operations, isOperation operation.2 = true := by
  have none := Sorting.eq_nil_of_sort shaped
  simp only [List.append_eq_nil_iff] at none
  have complete : missingFields entries = [] := none.1.1.1.1.1
  have fine : operationIssues entries = [] := none.2
  cases found : Entries.find? (.text "operations") entries with
  | none => simp [missingFields, field?, found] at complete
  | some value =>
      simp only [operationIssues, field?, found] at fine
      split at fine
      · contradiction
      · rename_i operations given
        cases given
        refine ⟨operations, rfl, fun operation inside => ?_⟩
        have allowed := List.filter_eq_nil_iff.mp (List.map_eq_nil_iff.mp fine) operation inside
        simpa using allowed
      · exact absurd fine (List.cons_ne_nil _ _)

end Shape

end QueryOptions
