import QueryOptions.Proofs.Customizing

namespace QueryOptions

/-! What descriptors do to a node, part by part. The requirement, the binding name and the kind of a
node go their own ways through a list of descriptors: `required` and `rename` touch the heading
only, and what the others make of the kind does not depend on it. Hence only the order of
descriptors that bear on the same part matters. -/

/-- Whether descriptors of the kind decide about the kind of a node. -/
def DescriptorKind.shapes : DescriptorKind → Bool
  | .leaf _ => true
  | .list _ => true
  | .structure => true
  | _ => false

namespace Descriptor

def kind : Descriptor → DescriptorKind
  | .leaf type => .leaf type
  | .required => .required
  | .rename _ => .rename
  | .pattern => .pattern
  | .list join _ => .list join
  | .structure _ => .structure

/-- The new name that a descriptor gives. -/
def target? : Descriptor → Option Text
  | .rename target => some target
  | _ => none

/-- The kind of a declared descriptor. -/
def declaredKind? (given : Value) : Option DescriptorKind := (form given).toOption.map Prod.fst

/-- Whether a declared descriptor decides about the kind of a node. -/
def declaresShape (given : Value) : Bool := (declaredKind? given).any DescriptorKind.shapes

/-- The argument of a declared descriptor that renames. -/
def declaredTarget? (given : Value) : Option Value :=
  match form given with
  | .ok (.rename, argument) => some argument
  | _ => none

end Descriptor

/-! Headings. -/

namespace Heading

variable {heading : Heading} {descriptors : List Descriptor}

theorem wire_foldl_apply : (descriptors.foldl apply heading).wire = heading.wire := by
  induction descriptors generalizing heading with
  | nil => rfl
  | cons descriptor rest ih =>
      rw [List.foldl_cons, ih]
      cases descriptor <;> rfl

theorem required_foldl_apply : (descriptors.foldl apply heading).required = true ↔
    heading.required = true ∨ ∃ descriptor ∈ descriptors, descriptor.kind = .required := by
  induction descriptors generalizing heading with
  | nil => simp
  | cons descriptor rest ih =>
      rw [List.foldl_cons, ih]
      cases descriptor <;> simp [apply, Descriptor.kind]

theorem binding_foldl_apply : (descriptors.foldl apply heading).binding =
    (descriptors.filterMap Descriptor.target?).getLast?.elim heading.binding
      Naming.bindingName := by
  induction descriptors using List.reverseRecOn with
  | nil => rfl
  | append_singleton others descriptor ih =>
      rw [List.foldl_append, List.foldl_cons, List.foldl_nil]
      cases descriptor with
      | rename target => simp [apply, Descriptor.target?]
      | _ => simpa [apply, Descriptor.target?] using ih

theorem foldl_apply_eq {others : List Descriptor}
    (required : (∃ descriptor ∈ descriptors, descriptor.kind = .required) ↔
      ∃ descriptor ∈ others, descriptor.kind = .required)
    (targets : descriptors.filterMap Descriptor.target? = others.filterMap Descriptor.target?) :
    descriptors.foldl apply heading = others.foldl apply heading := by
  have wire : (descriptors.foldl apply heading).wire = (others.foldl apply heading).wire := by
    rw [wire_foldl_apply, wire_foldl_apply]
  have binding :
      (descriptors.foldl apply heading).binding = (others.foldl apply heading).binding := by
    rw [binding_foldl_apply, targets, binding_foldl_apply]
  have flag : (descriptors.foldl apply heading).required =
      (others.foldl apply heading).required := by
    rw [Bool.eq_iff_iff, required_foldl_apply, required, required_foldl_apply]
  generalize descriptors.foldl apply heading = left at *
  generalize others.foldl apply heading = right at *
  cases left
  cases right
  simp_all

end Heading

/-! Kinds. -/

namespace Node

/-- The nodes differ in their headings at most. -/
def SameKind (left right : Node) : Prop := left.withHeading right.heading = right

theorem withHeading_withHeading (node : Node) (first second : Heading) :
    (node.withHeading first).withHeading second = node.withHeading second := by
  cases node <;> rfl

theorem sameKind_withHeading (node : Node) (first second : Heading) :
    (node.withHeading first).SameKind (node.withHeading second) := by
  rw [SameKind, heading_withHeading, withHeading_withHeading]

theorem apply_of_not_shapes (node : Node) {descriptor : Descriptor}
    (plain : descriptor.kind.shapes = false) :
    node.apply descriptor = node.withHeading (node.heading.apply descriptor) := by
  cases descriptor with
  | required => rfl
  | rename target => rfl
  | pattern => exact (withHeading_heading node).symm
  | _ => contradiction

/-- The descriptors of the heading may be left to the end. -/
theorem extend_eq_withHeading (node : Node) (descriptors : List Descriptor) :
    node.extend descriptors =
      (node.extend (descriptors.filter fun descriptor => descriptor.kind.shapes)).withHeading
        (descriptors.foldl Heading.apply node.heading) := by
  induction descriptors generalizing node with
  | nil => exact (withHeading_heading node).symm
  | cons descriptor rest ih =>
      rw [List.foldl_cons, List.filter_cons]
      by_cases shapes : descriptor.kind.shapes = true
      · rw [if_pos shapes, extend, extend, ih, heading_apply]
      · rw [if_neg shapes, extend, apply_of_not_shapes node (eq_false_of_ne_true shapes),
          extend_withHeading, ih, withHeading_withHeading]

theorem SameKind.extend {left right : Node} (same : left.SameKind right)
    {descriptors others : List Descriptor}
    (shapes : (descriptors.filter fun descriptor => descriptor.kind.shapes) =
      others.filter fun descriptor => descriptor.kind.shapes) :
    (left.extend descriptors).SameKind (right.extend others) := by
  rw [extend_eq_withHeading left, extend_eq_withHeading right, shapes, ← same, extend_withHeading,
    withHeading_withHeading]
  exact sameKind_withHeading _ _ _

end Node

/-! Declared descriptors. -/

namespace Descriptor

variable {owner : Text} {given : Value} {descriptor : Descriptor} {declared : List Value}
  {descriptors : List Descriptor}

theorem kind_of_assemble {name argument : Value}
    {block : Unit → Except SchemaError (List Descriptor)}
    {members : Unit → Except SchemaError (List (Text × List Descriptor))}
    (made : assemble owner name argument block members = .ok descriptor) :
    DescriptorKind.resolve name = .ok descriptor.kind ∧
      ∀ target, descriptor = .rename target → target = argument.shown := by
  obtain ⟨kind, resolved, tail⟩ := ok_of_bind made
  obtain ⟨⟨⟩, -, last⟩ := ok_of_bind tail
  rw [resolved]
  cases kind with
  | list join =>
      obtain ⟨found, -, same⟩ := ok_of_bind last
      cases same
      exact ⟨rfl, nofun⟩
  | «structure» =>
      obtain ⟨found, -, same⟩ := ok_of_bind last
      cases same
      exact ⟨rfl, nofun⟩
  | _ =>
      cases last
      simp [kind]

theorem form_of_read (read : Descriptor.read owner given = .ok descriptor) :
    ∃ argument, form given = .ok (descriptor.kind, argument) ∧
      ∀ target, descriptor = .rename target → target = argument.shown := by
  unfold Descriptor.read at read
  split at read
  · rename_i name argument
    obtain ⟨resolved, renamed⟩ := kind_of_assemble read
    exact ⟨argument, by rw [form, resolved]; rfl, renamed⟩
  · rename_i unlike
    unfold bare at read
    split at read
    · contradiction
    · rename_i other
      obtain ⟨resolved, renamed⟩ := kind_of_assemble read
      refine ⟨.null, ?_, renamed⟩
      unfold form
      split
      · exact absurd rfl (unlike _ _)
      · exact absurd rfl (other _)
      · rw [resolved]
        rfl

theorem declaredKind?_of_read (read : Descriptor.read owner given = .ok descriptor) :
    declaredKind? given = some descriptor.kind := by
  obtain ⟨argument, formed, -⟩ := form_of_read read
  rw [declaredKind?, formed]
  rfl

theorem declaresShape_of_read (read : Descriptor.read owner given = .ok descriptor) :
    declaresShape given = descriptor.kind.shapes := by
  rw [declaresShape, declaredKind?_of_read read, Option.any_some]

theorem declaredTarget?_of_read (read : Descriptor.read owner given = .ok descriptor) :
    (declaredTarget? given).map Value.shown = descriptor.target? := by
  obtain ⟨argument, formed, renamed⟩ := form_of_read read
  rw [declaredTarget?, formed]
  cases descriptor with
  | rename target => exact congrArg some (renamed target rfl).symm
  | _ => rfl

theorem forall₂_of_readAll (read : readAll owner declared = .ok descriptors) :
    List.Forall₂ (fun given descriptor => Descriptor.read owner given = .ok descriptor) declared
      descriptors := by
  rw [readAll_eq_mapM] at read
  exact forall₂_of_mapM_ok read

theorem exists_required_iff (read : readAll owner declared = .ok descriptors) :
    (∃ given ∈ declared, declaredKind? given = some .required) ↔
      ∃ descriptor ∈ descriptors, descriptor.kind = .required := by
  have all := forall₂_of_readAll read
  constructor
  · rintro ⟨given, inside, required⟩
    obtain ⟨descriptor, member, found⟩ := exists_of_forall₂ all inside
    rw [declaredKind?_of_read found] at required
    exact ⟨descriptor, member, Option.some.inj required⟩
  · rintro ⟨descriptor, inside, required⟩
    obtain ⟨given, member, found⟩ := exists_of_forall₂ all.flip inside
    exact ⟨given, member, required ▸ declaredKind?_of_read found⟩

theorem targets_of_readAll (read : readAll owner declared = .ok descriptors) :
    (declared.filterMap declaredTarget?).map Value.shown = descriptors.filterMap target? := by
  have all := forall₂_of_readAll read
  clear read
  induction all with
  | nil => rfl
  | @cons given descriptor rest others found _ ih =>
      have first := declaredTarget?_of_read found
      cases named : declaredTarget? given <;> rw [named] at first <;>
        simp [named, ← first, ih]

theorem readAll_shapes (read : readAll owner declared = .ok descriptors) :
    readAll owner (declared.filter declaresShape) =
      .ok (descriptors.filter fun descriptor => descriptor.kind.shapes) := by
  have all := forall₂_of_readAll read
  clear read
  induction all with
  | nil => rfl
  | @cons given descriptor rest others found _ ih =>
      rw [List.filter_cons, List.filter_cons, declaresShape_of_read found]
      split
      · rw [readAll_cons, found, ih]
        rfl
      · exact ih

theorem shapes_eq_of_readAll {other : Text} {others : List Value}
    {otherDescriptors : List Descriptor}
    (read : readAll owner declared = .ok descriptors)
    (otherRead : readAll other others = .ok otherDescriptors)
    (same : declared.filter declaresShape = others.filter declaresShape) :
    (descriptors.filter fun descriptor => descriptor.kind.shapes) =
      otherDescriptors.filter fun descriptor => descriptor.kind.shapes := by
  have left := readAll_shapes read
  have right := readAll_of_owner (readAll_shapes otherRead) owner
  rw [same, right] at left
  exact (Except.ok.inj left).symm

theorem readAll_of_perm {moved : List Value} (read : readAll owner declared = .ok descriptors)
    (perm : moved.Perm declared) : ∃ others, readAll owner moved = .ok others := by
  simp only [readAll_eq_mapM]
  refine exists_mapM_ok fun given inside => ?_
  obtain ⟨descriptor, -, found⟩ := exists_of_forall₂ (forall₂_of_readAll read) (perm.subset inside)
  exact ⟨descriptor, found⟩

end Descriptor

namespace Node

/-- What a list of descriptors makes of a node: the wire name stays, any `required` makes it
required, the last new name counts, and the kind depends on the kind before and on the descriptors
that decide about kinds. So the others may stand anywhere, in any order among themselves save that
of the new names. -/
theorem extendDeclared_apart {node extended : Node} {declared : List Value}
    (accepted : node.extendDeclared declared = .ok extended) :
    extended.wire = node.wire ∧
    (extended.required = true ↔ node.required = true ∨
      ∃ given ∈ declared, Descriptor.declaredKind? given = some .required) ∧
    extended.binding = (declared.filterMap Descriptor.declaredTarget?).getLast?.elim node.binding
      (fun target => Naming.bindingName target.shown) ∧
    (∀ other otherExtended others, node.SameKind other →
      other.extendDeclared others = .ok otherExtended →
      declared.filter Descriptor.declaresShape = others.filter Descriptor.declaresShape →
      extended.SameKind otherExtended) ∧
    ∀ moved, moved.Perm declared →
      moved.filter Descriptor.declaresShape = declared.filter Descriptor.declaresShape →
      moved.filterMap Descriptor.declaredTarget? = declared.filterMap Descriptor.declaredTarget? →
      node.extendDeclared moved = .ok extended := by
  obtain ⟨descriptors, read, rfl⟩ := map_eq_ok_iff.mp accepted
  refine ⟨wire_extend node descriptors, ?_, ?_, ?_, ?_⟩
  · rw [required, heading_extend, Heading.required_foldl_apply, Descriptor.exists_required_iff read]
    rfl
  · rw [binding, heading_extend, Heading.binding_foldl_apply, ← Descriptor.targets_of_readAll read,
      List.getLast?_map]
    cases (declared.filterMap Descriptor.declaredTarget?).getLast? <;> rfl
  · intro other otherExtended others same otherAccepted shapes
    obtain ⟨otherDescriptors, otherRead, rfl⟩ := map_eq_ok_iff.mp otherAccepted
    exact same.extend (Descriptor.shapes_eq_of_readAll read otherRead shapes)
  · intro moved perm shapes targets
    obtain ⟨others, movedRead⟩ := Descriptor.readAll_of_perm read perm
    refine map_eq_ok_iff.mpr ⟨others, movedRead, ?_⟩
    have required : (∃ descriptor ∈ others, descriptor.kind = .required) ↔
        ∃ descriptor ∈ descriptors, descriptor.kind = .required := by
      rw [← Descriptor.exists_required_iff movedRead, ← Descriptor.exists_required_iff read]
      simp only [perm.mem_iff]
    have names :
        others.filterMap Descriptor.target? = descriptors.filterMap Descriptor.target? := by
      rw [← Descriptor.targets_of_readAll movedRead, targets, Descriptor.targets_of_readAll read]
    rw [extend_eq_withHeading node others, extend_eq_withHeading node descriptors,
      Descriptor.shapes_eq_of_readAll movedRead read shapes, Heading.foldl_apply_eq required names]

def pageModifiers : List Value :=
  [.text "required", .map [(.text "rename", .text "Pages")],
    .map [(.kind .rename, .text "PageNumbers")]]

def pageShapes : List Value :=
  [.map [(.text "list", .text "integer")], .text "pattern",
    .map [(.text "membered_list", .text "required")]]

/-- It is the same whether the names or the numbers of pages are described first. -/
theorem page_extendDeclared_apart :
    ∃ extended, (default (.plain "Page")).extendDeclared (pageModifiers ++ pageShapes) =
        .ok extended ∧
      extended.wire = .plain "Page" ∧ extended.required = true ∧
      extended.binding = Text.ofString "page_numbers" ∧
      (default (.plain "Page")).extendDeclared (pageShapes ++ pageModifiers) = .ok extended := by
  have accepted : (default (.plain "Page")).extendDeclared (pageModifiers ++ pageShapes) =
      .ok (.list ⟨.plain "Page", "page_numbers", true⟩
        (.scalar ⟨.plain listMemberName, listMemberName, true⟩ .integer) .membered) := rfl
  obtain ⟨wire, required, binding, -, moved⟩ := extendDeclared_apart accepted
  have first : Descriptor.declaredKind? (.text "required") = some .required := rfl
  exact ⟨_, accepted, wire, required.mpr (.inr ⟨_, List.mem_cons_self, first⟩), binding,
    moved _ List.perm_append_comm rfl rfl⟩

end Node

end QueryOptions
