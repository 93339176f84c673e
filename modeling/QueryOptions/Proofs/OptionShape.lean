import QueryOptions.Catalog.Shape
import QueryOptions.Proofs.Customizing

namespace QueryOptions

/-! The shape of option lists as the rules of a document schema. Whatever a schema can be customized
with has this shape, and whatever has it fails by its descriptors alone. -/

/-- The types that document schemas tell apart. -/
inductive ShapeType where
  | null
  | string
  | array
  | object

def ShapeType.includes : ShapeType → Value → Bool
  | .null, .null => true
  | .string, value => value.isText
  | .array, .list _ => true
  | .object, .map _ => true
  | _, _ => false

/-- A rule of a document schema. One about lengths or parts says nothing of values of other types. -/
inductive ShapeRule where
  | type (wanted : ShapeType)
  | minLength (least : Nat)
  | minProperties (least : Nat)
  | maxProperties (most : Nat)
  | items (each : ShapeRule)
  | additionalProperties (each : ShapeRule)
  | allOf (rules : List ShapeRule)
  | oneOf (rules : List ShapeRule)

namespace ShapeRule

mutual

def accepts : ShapeRule → Value → Bool
  | .type wanted, value => wanted.includes value
  | .minLength least, value => value.text?.all fun text => least ≤ text.length
  | .minProperties least, .map entries => least ≤ entries.length
  | .minProperties _, _ => true
  | .maxProperties most, .map entries => entries.length ≤ most
  | .maxProperties _, _ => true
  | .items each, .list values => values.all fun value => each.accepts value
  | .items _, _ => true
  | .additionalProperties each, .map entries => entries.all fun entry => each.accepts entry.2
  | .additionalProperties _, _ => true
  | .allOf rules, value => acceptsAll rules value
  | .oneOf rules, value => acceptCount rules value = 1

def acceptsAll : List ShapeRule → Value → Bool
  | [], _ => true
  | rule :: rest, value => rule.accepts value && acceptsAll rest value

/-- How many of the rules accept a value. -/
def acceptCount : List ShapeRule → Value → Nat
  | [], _ => 0
  | rule :: rest, value => (rule.accepts value).toNat + acceptCount rest value

end

def descriptor : ShapeRule :=
  .oneOf [
    .allOf [.type .string, .minLength 1],
    .allOf [.type .object, .minProperties 1, .maxProperties 1]]

def descriptorList : ShapeRule := .allOf [.type .array, .items descriptor]

def option : ShapeRule :=
  .oneOf [
    .allOf [.type .string, .minLength 1],
    .allOf [.type .object, .minProperties 1, .maxProperties 1,
      .additionalProperties (.oneOf [.type .null, descriptorList])]]

def optionList : ShapeRule := .allOf [.type .array, .items option]

theorem accepts_descriptor (value : Value) :
    descriptor.accepts value = Shape.isDescriptor value := by
  have texts : ∀ content,
      descriptor.accepts (.text content) = Shape.isDescriptor (.text content) := by
    intro content
    cases content <;> rfl
  cases value with
  | text content => exact texts content
  | kind named => exact texts named.name
  | map entries =>
      match entries with
      | [] => rfl
      | [_] => rfl
      | _ :: _ :: _ => simp [descriptor, accepts, acceptsAll, acceptCount, ShapeType.includes,
          Value.isText, Value.text?, Shape.isDescriptor]
  | _ => rfl

theorem accepts_descriptorList (value : Value) :
    descriptorList.accepts value = Shape.isDescriptorList value := by
  cases value with
  | list given =>
      simp [descriptorList, accepts, acceptsAll, ShapeType.includes, accepts_descriptor,
        Shape.isDescriptorList]
  | _ => rfl

theorem accepts_option (value : Value) : option.accepts value = Shape.isOption value := by
  have texts : ∀ content, option.accepts (.text content) = Shape.isOption (.text content) := by
    intro content
    cases content <;> rfl
  cases value with
  | text content => exact texts content
  | kind named => exact texts named.name
  | map entries =>
      match entries with
      | [] => rfl
      | [(name, description)] =>
          have described : option.accepts (.map [(name, description)]) =
              (oneOf [.type .null, descriptorList]).accepts description := by
            simp [option, accepts, acceptsAll, acceptCount, ShapeType.includes, Value.isText,
              Value.text?]
          rw [described]
          cases description with
          | list given =>
              have listed := accepts_descriptorList (.list given)
              simp [accepts, acceptCount, ShapeType.includes, listed, Shape.isOption]
          | _ => rfl
      | _ :: _ :: _ => simp [option, accepts, acceptsAll, acceptCount, ShapeType.includes,
          Value.isText, Value.text?, Shape.isOption]
  | _ => rfl

theorem accepts_optionList (value : Value) :
    optionList.accepts value = Shape.isOptionList value := by
  cases value with
  | list given =>
      simp [optionList, accepts, acceptsAll, ShapeType.includes, accepts_option,
        Shape.isOptionList]
  | _ => rfl

end ShapeRule

namespace DescriptorKind

theorem name_ne_nil (named : DescriptorKind) : named.name ≠ [] := by
  cases named with
  | leaf type => cases type <;> exact List.cons_ne_nil _ _
  | list join => cases join <;> exact List.cons_ne_nil _ _
  | _ => exact List.cons_ne_nil _ _

/-- Only a text that is not empty stands for a kind. -/
theorem exists_text_of_resolve {name : Value} {kind : DescriptorKind}
    (resolved : resolve name = .ok kind) : ∃ content, name.text? = some content ∧ content ≠ [] := by
  cases name with
  | text content =>
      cases content with
      | nil => contradiction
      | cons first rest => exact ⟨_, rfl, List.cons_ne_nil _ _⟩
  | kind named => exact ⟨_, rfl, named.name_ne_nil⟩
  | _ => contradiction

end DescriptorKind

namespace Shape

variable {given item : Value} {owner : Text} {declaration : Declaration}

theorem isDescriptor_iff : isDescriptor given = true ↔
    (∃ content, given.text? = some content ∧ content ≠ []) ∨ ∃ entry, given = .map [entry] := by
  cases given with
  | text content =>
      have named : isDescriptor (.text content) = !content.isEmpty := rfl
      simp [named, Value.text?]
  | kind named =>
      have named : isDescriptor (.kind named) = !named.name.isEmpty := rfl
      simp [named, Value.text?]
  | map entries => simp [isDescriptor, Value.text?, List.length_eq_one_iff]
  | _ => exact iff_of_false nofun (by simp [Value.text?])

theorem isDescriptor_of_read {descriptor : Descriptor}
    (read : Descriptor.read owner given = .ok descriptor) : isDescriptor given = true := by
  unfold Descriptor.read at read
  split at read
  · rfl
  · unfold Descriptor.bare at read
    split at read
    · contradiction
    · obtain ⟨kind, resolved, -⟩ := ok_of_bind read
      exact isDescriptor_iff.mpr (.inl (DescriptorKind.exists_text_of_resolve resolved))

theorem isOption_of_declaration (read : Declaration.ofValue item = .ok declaration)
    (formed : ∀ given ∈ declaration.descriptors, isDescriptor given = true)
    (untupled : ∀ name descriptors, item ≠ .map [(name, .tuple descriptors)]) :
    isOption item = true := by
  unfold Declaration.ofValue at read
  split at read
  · contradiction
  · rename_i name description
    unfold Declaration.ofEntry at read
    split at read
    · rfl
    · cases read
      exact List.all_eq_true.mpr formed
    · rename_i descriptors
      exact absurd rfl (untupled name descriptors)
    · contradiction
  · contradiction
  · contradiction
  · rename_i content nonempty
    cases content with
    | nil => exact absurd rfl nonempty
    | cons => rfl
  · rename_i named
    have texts : isOption (.kind named) = !named.name.isEmpty := rfl
    simp [texts, named.name_ne_nil]
  · contradiction

theorem exists_declaration_of_isOption (shaped : isOption item = true) :
    ∃ declaration, Declaration.ofValue item = .ok declaration ∧
      ∀ given ∈ declaration.descriptors, isDescriptor given = true := by
  cases item with
  | text content =>
      cases content with
      | nil => contradiction
      | cons first rest => exact ⟨_, rfl, List.forall_mem_nil _⟩
  | kind named => exact ⟨_, rfl, List.forall_mem_nil _⟩
  | map entries =>
      match entries with
      | [] => contradiction
      | [(name, description)] =>
          cases description with
          | null => exact ⟨_, rfl, List.forall_mem_nil _⟩
          | list descriptors => exact ⟨_, rfl, List.all_eq_true.mp shaped⟩
          | _ => contradiction
      | _ :: _ :: _ => simp [isOption] at shaped
  | _ => contradiction

end Shape

namespace Schema

theorem exists_of_declare_error {schema : Schema} {declaration : Declaration} {error : SchemaError}
    (stopped : schema.declare declaration = .error error) :
    ∃ given ∈ declaration.descriptors, ∃ owner, Descriptor.read owner given = .error error := by
  let node := (schema.optionByWireName? declaration.name.text).getD (.default declaration.name)
  have declared : schema.declare declaration =
      (Descriptor.readAll node.wire.spelling declaration.descriptors).map node.extend >>=
        fun extended => .ok ⟨putNode extended schema.options⟩ := rfl
  rw [declared, Descriptor.readAll_eq_mapM] at stopped
  cases read : declaration.descriptors.mapM (Descriptor.read node.wire.spelling) with
  | ok block =>
      rw [read] at stopped
      contradiction
  | error reason =>
      rw [read] at stopped
      obtain rfl : reason = error := Except.error.inj stopped
      obtain ⟨given, among, failed⟩ := exists_of_mapM_error read
      exact ⟨given, among, _, failed⟩

/-- A list that a schema can be made of has the shape of option lists, unless an option is described
by a tuple. Each item of a list of that shape declares an option, with descriptors that are names or
mappings of one entry; what is wrong with such a list is wrong with a descriptor. -/
theorem customize_agrees_with_optionList (items : List Value) :
    ((∀ name descriptors, .map [(name, .tuple descriptors)] ∉ items) →
      ∀ schema, empty.customize (.list items) = .ok schema →
        ShapeRule.optionList.accepts (.list items) = true) ∧
    (ShapeRule.optionList.accepts (.list items) = true →
      (∀ item ∈ items, ∃ declaration, Declaration.ofValue item = .ok declaration ∧
        ∀ given ∈ declaration.descriptors,
          (∃ content, given.text? = some content ∧ content ≠ []) ∨
            ∃ entry, given = .map [entry]) ∧
      ∀ error, empty.customize (.list items) = .error error →
        ∃ item ∈ items, ∃ declaration, Declaration.ofValue item = .ok declaration ∧
          ∃ given ∈ declaration.descriptors, ∃ owner,
            Descriptor.read owner given = .error error) := by
  rw [ShapeRule.accepts_optionList]
  refine ⟨fun untupled schema built => ?_,
    fun shaped => ⟨fun item inside => ?_, fun error failed => ?_⟩⟩
  · obtain ⟨declared, read, -⟩ := customize_eq_ok_iff.mp built
    obtain ⟨declarations, named, blocks⟩ := ok_of_bind read
    refine List.all_eq_true.mpr fun item inside => ?_
    obtain ⟨declaration, declares, ofItem⟩ := exists_of_forall₂ (forall₂_of_mapM_ok named) inside
    obtain ⟨block, -, blockRead⟩ := exists_of_forall₂ (forall₂_of_mapM_ok blocks) declares
    obtain ⟨descriptors, readAll, -⟩ := map_eq_ok_iff.mp blockRead
    rw [Descriptor.readAll_eq_mapM] at readAll
    refine Shape.isOption_of_declaration ofItem (fun given among => ?_) fun name described same =>
      untupled name described (same ▸ inside)
    obtain ⟨descriptor, -, read⟩ := exists_of_forall₂ (forall₂_of_mapM_ok readAll) among
    exact Shape.isDescriptor_of_read read
  · have shaped := List.all_eq_true.mp shaped item inside
    obtain ⟨declaration, read, formed⟩ := Shape.exists_declaration_of_isOption shaped
    exact ⟨declaration, read, fun given among => Shape.isDescriptor_iff.mp (formed given among)⟩
  · have declares : ∀ item ∈ items, ∃ declaration, Declaration.ofValue item = .ok declaration :=
      fun item inside => (Shape.exists_declaration_of_isOption
        (List.all_eq_true.mp shaped item inside)).imp fun _ => And.left
    obtain ⟨declarations, named⟩ := exists_mapM_ok declares
    have folded : declarations.foldlM declare empty = .error error := by
      rw [← failed, customize]
      show _ = items.mapM Declaration.ofValue >>= _
      rw [named]
      rfl
    obtain ⟨before, declaration, after, middle, split, -, stopped⟩ := exists_of_foldlM_error folded
    have member : declaration ∈ declarations := by simp [split]
    obtain ⟨item, inside, ofItem⟩ := mem_of_mapM_ok named member
    obtain ⟨given, among, ended⟩ := exists_of_declare_error stopped
    exact ⟨item, inside, declaration, ofItem, given, among, ended⟩

/-- One list makes a schema and therefore has the shape; another has it and fails all the same, by
a descriptor of no known kind. -/
theorem size_customizes :
    let sized : List Value := [.text "Owner", .map [(.text "Size", .list [.text "integer"])]]
    let unknown : List Value := [.map [(.text "Size", .list [.text "number"])]]
    (∃ schema, empty.customize (.list sized) = .ok schema) ∧
    ShapeRule.optionList.accepts (.list sized) = true ∧
    ShapeRule.optionList.accepts (.list unknown) = true ∧
    ∃ error, empty.customize (.list unknown) = .error error ∧
      ∃ given owner, Descriptor.read owner given = .error error := by
  intro sized unknown
  have success : (empty.customize (.list sized)).toOption.isSome = true := by decide +kernel
  obtain ⟨schema, built⟩ := Option.isSome_iff_exists.mp success
  have made := toOption_eq_some_iff.mp built
  have shaped : ShapeRule.optionList.accepts (.list unknown) = true := by decide +kernel
  have failure : (empty.customize (.list unknown)).toOption = none := by decide +kernel
  have accepted := (customize_agrees_with_optionList sized).1 (by simp [sized]) schema made
  refine ⟨⟨schema, made⟩, accepted, shaped, ?_⟩
  cases ended : empty.customize (.list unknown) with
  | ok schema =>
      rw [ended] at failure
      contradiction
  | error error =>
      obtain ⟨-, ends⟩ := (customize_agrees_with_optionList unknown).2 shaped
      obtain ⟨item, -, declaration, -, given, -, owner, read⟩ := ends error ended
      exact ⟨error, rfl, given, owner, read⟩

end Schema

end QueryOptions
