import QueryOptions.Proofs.Customizing
import QueryOptions.Proofs.Visit

namespace QueryOptions

/-! Where the nodes of a schema come from. Whatever stands inside an option was declared in one piece
with it, under the names on the way to it: renames, and declarations that extend or replace earlier
ones, never move a node to another wire name. -/

/-- One step from a node to one inside it. -/
inductive Branch where
  | member (wire : Text)
  | element

abbrev Trail := List Branch

/-- A node stands inside another, at the end of a trail of wire names. -/
inductive Node.Stands : Node → Trail → Node → Prop
  | here {node} : Stands node [] node
  | member {heading members member trail found} (inside : member ∈ members)
      (deeper : Stands member trail found) :
      Stands (.structure heading members) (.member member.wire.text :: trail) found
  | element {heading member join trail found} (deeper : Stands member trail found) :
      Stands (.list heading member join) (.element :: trail) found

/-- A list of descriptors at the end of the trail has the property. -/
inductive AppliedAt (cause : List Descriptor → Prop) : List Descriptor → Trail → Prop
  | here {block} (given : cause block) : AppliedAt cause block []
  | member {block members name inner trail} (given : .structure members ∈ block)
      (named : (name, inner) ∈ members) (deeper : AppliedAt cause inner trail) :
      AppliedAt cause block (.member name :: trail)
  | element {block join inner trail} (given : .list join inner ∈ block)
      (deeper : AppliedAt cause inner trail) : AppliedAt cause block (.element :: trail)

/-- What holds of a node after a descriptor held of it before, or the descriptor is a cause of it. New
nodes have it only where all descriptors are. -/
structure Traced (holds : Node → Prop) (cause : List Descriptor → Prop) : Prop where
  mono {block larger : List Descriptor} (within : block ⊆ larger) (caused : cause block) :
    cause larger
  apply {node : Node} {descriptor : Descriptor} (after : holds (node.apply descriptor)) :
    holds node ∨ cause [descriptor]
  default {wire : WireName} (fresh : holds (.default wire)) (block : List Descriptor) : cause block
  listMember (fresh : holds .listMember) (block : List Descriptor) : cause block

theorem AppliedAt.mono {holds : Node → Prop} {cause : List Descriptor → Prop}
    (traced : Traced holds cause) {block larger : List Descriptor} {trail : Trail}
    (within : block ⊆ larger) (applied : AppliedAt cause block trail) :
    AppliedAt cause larger trail := by
  cases applied with
  | here given => exact .here (traced.mono within given)
  | member given named deeper => exact .member (within given) named deeper
  | element given deeper => exact .element (within given) deeper

namespace Node

variable {node found : Node} {heading : Heading} {trail : Trail}

@[simp] theorem stands_nil : node.Stands [] found ↔ node = found := by
  constructor
  · intro stands
    cases stands
    rfl
  · rintro rfl
    exact .here

@[simp] theorem not_stands_scalar {leaf : LeafType} {branch : Branch} :
    ¬ (Node.scalar heading leaf).Stands (branch :: trail) found := nofun

theorem stands_list {member : Node} {join : ListJoin} {branch : Branch} :
    (Node.list heading member join).Stands (branch :: trail) found ↔
      branch = .element ∧ member.Stands trail found := by
  constructor
  · intro stands
    cases stands with
    | element deeper => exact ⟨rfl, deeper⟩
  · rintro ⟨rfl, deeper⟩
    exact .element deeper

theorem stands_structure {members : List Node} {branch : Branch} :
    (Node.structure heading members).Stands (branch :: trail) found ↔
      ∃ member ∈ members, branch = .member member.wire.text ∧ member.Stands trail found := by
  constructor
  · intro stands
    cases stands with
    | member inside deeper => exact ⟨_, inside, rfl, deeper⟩
  · rintro ⟨member, inside, rfl, deeper⟩
    exact .member inside deeper

/-- The property holds of what stands at the end of the trail. -/
def HasAt (holds : Node → Prop) (node : Node) (trail : Trail) : Prop :=
  ∃ found, node.Stands trail found ∧ holds found

section HasAt

variable {holds : Node → Prop} {cause : List Descriptor → Prop}

theorem hasAt_nil : node.HasAt holds [] ↔ holds node := by
  simp [HasAt]

theorem hasAt_scalar {leaf : LeafType} : (Node.scalar heading leaf).HasAt holds trail ↔
    trail = [] ∧ holds (.scalar heading leaf) := by
  cases trail <;> simp [HasAt]

theorem hasAt_list {member : Node} {join : ListJoin} {branch : Branch} :
    (Node.list heading member join).HasAt holds (branch :: trail) ↔
      branch = .element ∧ member.HasAt holds trail := by
  simp only [HasAt, stands_list, and_assoc, exists_and_left]

theorem hasAt_structure {members : List Node} {branch : Branch} :
    (Node.structure heading members).HasAt holds (branch :: trail) ↔
      ∃ member ∈ members, branch = .member member.wire.text ∧ member.HasAt holds trail := by
  simp only [HasAt, stands_structure]
  grind

theorem hasAt_withHeading {branch : Branch} :
    (node.withHeading heading).HasAt holds (branch :: trail) ↔
      node.HasAt holds (branch :: trail) := by
  cases node <;> simp only [withHeading, hasAt_list, hasAt_structure, hasAt_scalar, reduceCtorEq,
    false_and]

/-- The member that a list of descriptors extends brings no more than the list has. -/
theorem hasAt_of_listMemberOf (has : node.listMemberOf.HasAt holds trail) :
    trail = [] ∧ holds listMember ∨ node.HasAt holds (.element :: trail) := by
  cases node with
  | list heading member join => exact .inr (hasAt_list.mpr ⟨rfl, has⟩)
  | scalar heading leaf => exact .inl (hasAt_scalar.mp has)
  | «structure» heading members => exact .inl (hasAt_scalar.mp has)

theorem hasAt_of_mem_members {member : Node} (inside : member ∈ node.members)
    (has : member.HasAt holds trail) :
    node.HasAt holds (.member member.wire.text :: trail) := by
  cases node with
  | «structure» heading members => exact hasAt_structure.mpr ⟨member, inside, rfl, has⟩
  | _ => simp [members] at inside

/-- What holds inside a member after it was declared held before, or was caused with it. -/
theorem hasAt_of_declareIn (traced : Traced holds cause) {level : List Node} {named : NamedBlock}
    {member : Node}
    (extended : ∀ node : Node, (node.extend named.2).HasAt holds trail →
      node.HasAt holds trail ∨ AppliedAt cause named.2 trail)
    (inside : member ∈ declareIn level named) (has : member.HasAt holds trail) :
    (∃ before ∈ level, before.wire.text = member.wire.text ∧ before.HasAt holds trail) ∨
      named.1.text = member.wire.text ∧ AppliedAt cause named.2 trail := by
  rcases mem_putNode inside with rfl | known
  · rw [wire_declared]
    rcases extended _ has with before | applied
    · cases found : findWire? named.1.text level with
      | none =>
          rw [found] at before
          obtain ⟨rfl, fresh⟩ := hasAt_scalar.mp before
          exact .inr ⟨rfl, .here (traced.default fresh named.2)⟩
      | some first =>
          rw [found] at before
          exact .inl ⟨first, mem_of_findWire? found, wire_of_findWire? found, before⟩
    · exact .inr ⟨rfl, applied⟩
  · exact .inl ⟨member, known, rfl, has⟩

mutual

/-- What holds inside a node after a descriptor held there before, or was caused by it. -/
theorem hasAt_of_apply (traced : Traced holds cause) (node : Node) : ∀ descriptor trail,
    (node.apply descriptor).HasAt holds trail →
      node.HasAt holds trail ∨ AppliedAt cause [descriptor] trail
  -- at the node itself the property decides, below it the descriptor's own parts
  | _, [], has => by
      rw [hasAt_nil] at has ⊢
      exact (traced.apply has).imp_right .here
  | .leaf type, _ :: _, has => absurd (hasAt_scalar.mp has).1 (List.cons_ne_nil _ _)
  | .required, _ :: _, has => .inl (hasAt_withHeading.mp has)
  | .rename target, _ :: _, has => .inl (hasAt_withHeading.mp has)
  | .pattern, _ :: _, has => .inl has
  | .list join block, _ :: trail, has => by
      rw [apply] at has
      obtain ⟨rfl, inside⟩ := hasAt_list.mp has
      rcases hasAt_of_extend traced node.listMemberOf block trail inside with before | applied
      · rcases hasAt_of_listMemberOf before with ⟨rfl, fresh⟩ | stood
        · exact .inr (.element List.mem_cons_self (.here (traced.listMember fresh block)))
        · exact .inl stood
      · exact .inr (.element List.mem_cons_self applied)
  | .structure members, _ :: trail, has => by
      rw [apply] at has
      obtain ⟨member, inside, rfl, below⟩ := hasAt_structure.mp has
      rcases hasAt_of_extendMembers traced node.members members trail inside below with
        ⟨known, stood, wire, before⟩ | ⟨named, given, name, applied⟩
      · exact .inl (wire ▸ hasAt_of_mem_members stood before)
      · exact .inr (name ▸ .member List.mem_cons_self given applied)

theorem hasAt_of_extend (traced : Traced holds cause) (node : Node) : ∀ descriptors trail,
    (node.extend descriptors).HasAt holds trail →
      node.HasAt holds trail ∨ AppliedAt cause descriptors trail
  | [], _, has => .inl has
  | descriptor :: rest, trail, has => by
      rw [extend] at has
      rcases hasAt_of_extend traced (node.apply descriptor) rest trail has with before | applied
      · refine (hasAt_of_apply traced node descriptor trail before).imp_right fun applied => ?_
        exact applied.mono traced (List.cons_subset_cons descriptor (List.nil_subset rest))
      · exact .inr (applied.mono traced (List.subset_cons_self descriptor rest))

theorem hasAt_of_extendMembers (traced : Traced holds cause) (known : List Node) :
    ∀ declared trail, ∀ {member : Node}, member ∈ extendMembers known declared →
      member.HasAt holds trail →
        (∃ before ∈ known, before.wire.text = member.wire.text ∧ before.HasAt holds trail) ∨
          ∃ named ∈ declared, named.1 = member.wire.text ∧ AppliedAt cause named.2 trail
  | [], _, member, inside, has => .inl ⟨member, inside, rfl, has⟩
  | (name, block) :: rest, trail, member, inside, has => by
      rw [extendMembers] at inside
      rcases hasAt_of_extendMembers traced _ rest trail inside has with
        ⟨before, stood, same, below⟩ | ⟨named, later, same, applied⟩
      · have declared : before ∈ declareIn known (.plain name, block) := stood
        rw [← same]
        refine (hasAt_of_declareIn traced (fun node => hasAt_of_extend traced node block trail)
          declared below).imp_right fun applied => ?_
        exact ⟨(name, block), List.mem_cons_self, applied⟩
      · exact .inr ⟨named, List.mem_cons_of_mem _ later, same, applied⟩

end

theorem hasAt_of_declareAll (traced : Traced holds cause) {level : List Node}
    {declared : List NamedBlock} {member : Node} (inside : member ∈ declareAll level declared)
    (has : member.HasAt holds trail) :
    (∃ before ∈ level, before.wire.text = member.wire.text ∧ before.HasAt holds trail) ∨
      ∃ named ∈ declared, named.1.text = member.wire.text ∧ AppliedAt cause named.2 trail := by
  induction declared generalizing level with
  | nil => exact .inl ⟨member, inside, rfl, has⟩
  | cons named rest ih =>
      rw [declareAll_cons] at inside
      rcases ih inside with ⟨before, stood, same, below⟩ | ⟨other, later, same, applied⟩
      · rw [← same]
        refine (hasAt_of_declareIn traced (fun node => hasAt_of_extend traced node named.2 trail)
          stood below).imp_right fun applied => ?_
        exact ⟨named, List.mem_cons_self, applied⟩
      · exact .inr ⟨other, List.mem_cons_of_mem _ later, same, applied⟩

end HasAt

/-- Something stands at the end of the trail. -/
def HasTrail (node : Node) (trail : Trail) : Prop := ∃ found, node.Stands trail found

theorem hasAt_true : node.HasAt (fun _ => True) trail ↔ node.HasTrail trail := by
  simp only [HasAt, HasTrail, and_true]

@[simp] theorem hasTrail_nil : node.HasTrail [] := ⟨node, .here⟩

theorem hasTrail_structure {members : List Node} {branch : Branch} :
    (Node.structure heading members).HasTrail (branch :: trail) ↔
      ∃ member ∈ members, branch = .member member.wire.text ∧ member.HasTrail trail := by
  simp only [← hasAt_true, hasAt_structure]

/-- What stands inside a node after a descriptor stood there before, or was declared by it. -/
theorem hasTrail_of_apply (node : Node) (descriptor : Descriptor) (trail : Trail)
    (has : (node.apply descriptor).HasTrail trail) :
    node.HasTrail trail ∨ AppliedAt (fun _ => True) [descriptor] trail := by
  have always : Traced (fun _ => True) fun _ => True :=
    ⟨fun _ _ => trivial, fun _ => .inl trivial, fun _ _ => trivial, fun _ _ => trivial⟩
  rw [← hasAt_true] at has ⊢
  exact hasAt_of_apply always node descriptor trail has

end Node

/-! Declarations as they are written. -/

namespace Value

/-- The descriptors in a list of descriptors; a single one stands for itself. -/
def descriptorItems : Value → List Value
  | .list items => items
  | .tuple items => items
  | value => [value]

/-- The name and the descriptors of one member. -/
def memberPair? : Value → Option (Value × Value)
  | .map [(name, block)] => some (name, block)
  | .list [name, block] => some (name, block)
  | .tuple [name, block] => some (name, block)
  | _ => none

/-- The names in a declaration of members, with the descriptors of each. -/
def memberPairs : Value → List (Value × Value)
  | .map entries => entries
  | .list items => items.filterMap memberPair?
  | .tuple items => items.filterMap memberPair?
  | _ => []

/-- The name and the descriptors of one option. -/
def optionPair? : Value → Option (Value × Value)
  | .map [(name, description)] => some (name, description)
  | .text name => some (.text name, .null)
  | _ => none

/-- The names in a configuration, with the descriptors of each. -/
def optionPairs : Value → List (Value × Value)
  | .map entries => entries
  | configuration => (configuration.items?.getD []).filterMap optionPair?

/-- A list or a member is declared at the end of a trail; members go by what their names are shown
as. -/
inductive DeclaresInside : Value → Trail → Prop
  | here {block} : DeclaresInside block []
  | member {block kind members name inner trail}
      (given : .map [(kind, members)] ∈ block.descriptorItems)
      (resolved : DescriptorKind.resolve kind = .ok .structure)
      (named : (name, inner) ∈ members.memberPairs) (deeper : DeclaresInside inner trail) :
      DeclaresInside block (.member name.shown :: trail)
  | element {block kind inner join trail} (given : .map [(kind, inner)] ∈ block.descriptorItems)
      (resolved : DescriptorKind.resolve kind = .ok (.list join))
      (deeper : DeclaresInside inner trail) : DeclaresInside block (.element :: trail)

/-- The descriptors that are declared at the end of a trail have the property. -/
inductive WrittenAt (property : Value → Prop) : Value → Trail → Prop
  | here {block} (given : property block) : WrittenAt property block []
  | member {block kind members name inner trail}
      (given : .map [(kind, members)] ∈ block.descriptorItems)
      (resolved : DescriptorKind.resolve kind = .ok .structure)
      (named : (name, inner) ∈ members.memberPairs) (deeper : WrittenAt property inner trail) :
      WrittenAt property block (.member name.shown :: trail)
  | element {block kind inner join trail} (given : .map [(kind, inner)] ∈ block.descriptorItems)
      (resolved : DescriptorKind.resolve kind = .ok (.list join))
      (deeper : WrittenAt property inner trail) : WrittenAt property block (.element :: trail)

theorem WrittenAt.declaresInside {property : Value → Prop} {block : Value} {trail : Trail}
    (written : block.WrittenAt property trail) : block.DeclaresInside trail := by
  induction written with
  | here _ => exact .here
  | member given resolved named _ ih => exact .member given resolved named ih
  | element given resolved _ ih => exact .element given resolved ih

/-- A configuration declares what stands at the end of a trail from the options on. -/
inductive Configures (configuration : Value) : Trail → Prop
  | option {name description trail} (given : (name, description) ∈ configuration.optionPairs)
      (deeper : description.DeclaresInside trail) :
      Configures configuration (.member name.shown :: trail)

end Value

namespace Descriptor

variable {owner inner : Text} {given argument value name : Value} {descriptor : Descriptor}

theorem exists_kind_of_assemble {block : Unit → Except SchemaError (List Descriptor)}
    {members : Unit → Except SchemaError (List (Text × List Descriptor))}
    (made : assemble owner name argument block members = .ok descriptor) :
    ∃ kind, DescriptorKind.resolve name = .ok kind ∧ kind.checkArgument owner argument = .ok () ∧
      (∀ found, descriptor = .structure found → kind = .structure ∧ members () = .ok found) ∧
      ∀ join found, descriptor = .list join found → kind = .list join ∧ block () = .ok found := by
  obtain ⟨kind, resolved, tail⟩ := ok_of_bind made
  obtain ⟨⟨⟩, checked, last⟩ := ok_of_bind tail
  refine ⟨kind, resolved, checked, ?_⟩
  cases kind with
  | list join =>
      obtain ⟨found, read, same⟩ := ok_of_bind last
      cases same
      simp [read]
  | «structure» =>
      obtain ⟨found, read, same⟩ := ok_of_bind last
      cases same
      simp [read]
  | _ =>
      cases last
      simp

theorem assemble_of_bare (read : bare owner given = .ok descriptor) :
    assemble owner given .null (fun _ => .ok []) (fun _ => .ok []) = .ok descriptor := by
  unfold bare at read
  split at read
  · contradiction
  · exact read

/-- Members are declared by a mapping of a name to an argument. -/
theorem read_structure {members : List (Text × List Descriptor)}
    (read : Descriptor.read owner given = .ok (.structure members)) : ∃ kind argument,
      given = .map [(kind, argument)] ∧ DescriptorKind.resolve kind = .ok .structure ∧
        readMembers owner argument = .ok members := by
  unfold Descriptor.read at read
  split at read
  · rename_i name argument
    obtain ⟨kind, resolved, -, structured, -⟩ := exists_kind_of_assemble read
    obtain ⟨rfl, found⟩ := structured members rfl
    exact ⟨name, argument, rfl, resolved, found⟩
  · obtain ⟨kind, -, checked, structured, -⟩ := exists_kind_of_assemble (assemble_of_bare read)
    obtain ⟨rfl, -⟩ := structured members rfl
    contradiction

/-- So is the member of a list. -/
theorem read_list {join : ListJoin} {block : List Descriptor}
    (read : Descriptor.read owner given = .ok (.list join block)) : ∃ kind argument,
      given = .map [(kind, argument)] ∧ DescriptorKind.resolve kind = .ok (.list join) ∧
        readBlock owner Node.listMemberName argument = .ok block := by
  unfold Descriptor.read at read
  split at read
  · rename_i name argument
    obtain ⟨kind, resolved, -, -, listed⟩ := exists_kind_of_assemble read
    obtain ⟨rfl, found⟩ := listed join block rfl
    exact ⟨name, argument, rfl, resolved, found⟩
  · obtain ⟨kind, -, checked, -, listed⟩ := exists_kind_of_assemble (assemble_of_bare read)
    obtain ⟨rfl, -⟩ := listed join block rfl
    contradiction

theorem exists_item_of_readBlock {value : Value} {block : List Descriptor}
    (read : readBlock owner inner value = .ok block) (member : descriptor ∈ block) :
    ∃ given ∈ value.descriptorItems, Descriptor.read inner given = .ok descriptor := by
  have single {given : Value} (alone : (do return [← Descriptor.read inner given]) = .ok block) :
      Descriptor.read inner given = .ok descriptor := by
    obtain ⟨only, found, same⟩ := ok_of_bind alone
    cases same
    exact List.mem_singleton.mp member ▸ found
  unfold readBlock at read
  split at read
  · cases read
    simp at member
  · rw [readAll_eq_mapM] at read
    exact mem_of_mapM_ok read member
  · rw [readAll_eq_mapM] at read
    exact mem_of_mapM_ok read member
  · exact ⟨_, List.mem_singleton_self _, single read⟩
  · contradiction
  · exact ⟨_, List.mem_singleton_self _, single read⟩
  · exact ⟨_, List.mem_singleton_self _, single read⟩
  · contradiction

theorem readItems_eq_readEntries (items : List Value) :
    readItems items = readEntries (items.filterMap Value.memberPair?) := by
  induction items with
  | nil => rfl
  | cons item rest ih =>
      cases found : Value.memberPair? item with
      | none =>
          rw [List.filterMap_cons_none found, ← ih]
          unfold Value.memberPair? at found
          split at found
          · contradiction
          · contradiction
          · contradiction
          · rw [readItems] <;> assumption
      | some pair =>
          rw [List.filterMap_cons_some found, readEntries, ← ih]
          unfold Value.memberPair? at found
          split at found <;> cases found <;> rw [readItems]

theorem exists_pair_of_readEntries {entries : List (Value × Value)}
    {members : List (Text × List Descriptor)} (read : readEntries entries = .ok members)
    {member : Text × List Descriptor} (inside : member ∈ members) :
    ∃ pair ∈ entries, pair.1.shown = member.1 ∧
      readBlock pair.1.shown pair.1.shown pair.2 = .ok member.2 := by
  induction entries generalizing members with
  | nil =>
      cases read
      simp at inside
  | cons entry rest ih =>
      obtain ⟨block, first, tail⟩ := ok_of_bind read
      obtain ⟨others, later, same⟩ := ok_of_bind tail
      cases same
      rcases List.mem_cons.mp inside with rfl | inRest
      · exact ⟨entry, List.mem_cons_self, rfl, first⟩
      · obtain ⟨pair, known, found⟩ := ih later inRest
        exact ⟨pair, List.mem_cons_of_mem _ known, found⟩

theorem exists_pair_of_readMembers {members : List (Text × List Descriptor)}
    (read : readMembers owner argument = .ok members) {member : Text × List Descriptor}
    (inside : member ∈ members) : ∃ pair ∈ argument.memberPairs, pair.1.shown = member.1 ∧
      readBlock pair.1.shown pair.1.shown pair.2 = .ok member.2 := by
  refine exists_pair_of_readEntries ?_ inside
  unfold readMembers at read
  split at read
  · exact read
  · obtain ⟨⟨⟩, -, items⟩ := ok_of_bind read
    exact (readItems_eq_readEntries _).symm.trans items
  · obtain ⟨⟨⟩, -, items⟩ := ok_of_bind read
    exact (readItems_eq_readEntries _).symm.trans items
  · contradiction

/-- What the descriptors that were read have inside, the value that they were read from has. -/
theorem writtenAt_of_readBlock {cause : List Descriptor → Prop} {property : Value → Prop}
    (written : ∀ owner inner value block, readBlock owner inner value = .ok block → cause block →
      property value)
    {value : Value} {block : List Descriptor} {trail : Trail}
    (applied : AppliedAt cause block trail) (read : readBlock owner inner value = .ok block) :
    value.WrittenAt property trail := by
  induction applied generalizing owner inner value with
  | here given => exact .here (written _ _ _ _ read given)
  | member given named _ ih =>
      obtain ⟨item, inside, readItem⟩ := exists_item_of_readBlock read given
      obtain ⟨kind, argument, rfl, resolved, members⟩ := read_structure readItem
      obtain ⟨pair, known, rfl, readPair⟩ := exists_pair_of_readMembers members named
      exact .member inside resolved known (ih readPair)
  | element given _ ih =>
      obtain ⟨item, inside, readItem⟩ := exists_item_of_readBlock read given
      obtain ⟨kind, argument, rfl, resolved, readMember⟩ := read_list readItem
      exact .element inside resolved (ih readMember)

end Descriptor

namespace Declaration

/-- What is read of an option has the name that its declaration shows, and its descriptors. -/
def ReadFrom (pair : Value × Value) (named : NamedBlock) : Prop :=
  named.1 = .plain pair.1.shown ∧
    Descriptor.readBlock pair.1.shown pair.1.shown pair.2 = .ok named.2

variable {configuration name description option : Value} {declaration : Declaration}
  {named : NamedBlock} {declarations : List Declaration} {declared : List NamedBlock}

theorem readFrom_of_ofEntry (entry : ofEntry name description = .ok declaration)
    (read : declaration.readBlock = .ok named) : ReadFrom (name, description) named := by
  obtain ⟨same, block⟩ := readBlock_eq_ok_iff.mp read
  rw [ReadFrom, same]
  cases description <;> simp only [ofEntry, reduceCtorEq] at entry <;> cases entry <;>
    exact ⟨rfl, block⟩

theorem readFrom_of_ofValue (bare : ∀ named, option ≠ .kind named)
    (valued : ofValue option = .ok declaration) (read : declaration.readBlock = .ok named) :
    ∃ pair, option.optionPair? = some pair ∧ ReadFrom pair named := by
  unfold ofValue at valued
  split at valued
  · contradiction
  · exact ⟨_, rfl, readFrom_of_ofEntry valued read⟩
  · contradiction
  · contradiction
  · cases valued
    exact ⟨_, rfl, readBlock_eq_ok_iff.mp read⟩
  · exact absurd rfl (bare _)
  · contradiction

theorem forall₂_readFrom {options : List Value} (bare : ∀ named, .kind named ∉ options)
    (read : List.Forall₂ (fun option named => ∃ declaration, ofValue option = .ok declaration ∧
      declaration.readBlock = .ok named) options declared) :
    List.Forall₂ ReadFrom (options.filterMap Value.optionPair?) declared := by
  induction read with
  | nil => exact .nil
  | cons here _ ih =>
      obtain ⟨declaration, valued, block⟩ := here
      obtain ⟨pair, paired, found⟩ := readFrom_of_ofValue
        (fun named same => bare named (same ▸ List.mem_cons_self)) valued block
      rw [List.filterMap_cons_some paired]
      exact .cons found (ih fun named inside => bare named (List.mem_cons_of_mem _ inside))

/-- The options of a configuration are read one by one. -/
theorem readFrom_of_readConfiguration (plain : configuration.NamesPlainly)
    (read : readConfiguration configuration = .ok declared) :
    List.Forall₂ ReadFrom configuration.optionPairs declared := by
  obtain ⟨declarations, parsed, blocks⟩ := ok_of_bind read
  have reading := forall₂_of_mapM_ok blocks
  unfold ofConfiguration at parsed
  split at parsed
  · cases parsed
    cases reading
    exact .nil
  · refine (forall₂_comp (forall₂_of_mapM_ok parsed) reading).imp ?_
    rintro pair named ⟨declaration, entry, block⟩
    exact readFrom_of_ofEntry entry block
  · contradiction
  · contradiction
  · contradiction
  · rename_i noMapping _ _ _
    split at parsed
    · rename_i items found
      have bare : ∀ named, .kind named ∉ items := by
        unfold Value.NamesPlainly at plain
        split at plain
        · exact absurd rfl (noMapping _)
        · exact plain items found
      have pairs : configuration.optionPairs = items.filterMap Value.optionPair? := by
        unfold Value.optionPairs
        split
        · exact absurd rfl (noMapping _)
        · rw [found, Option.getD_some]
      rw [pairs]
      exact forall₂_readFrom bare (forall₂_comp (forall₂_of_mapM_ok parsed) reading)
    · contradiction

end Declaration

namespace Schema

variable {base schema : Schema} {configuration : Value} {configurations : List Value}
  {trail : Trail}

/-- To customize a schema is to declare members of its root. -/
theorem exists_members_of_customize (plain : configuration.NamesPlainly)
    (built : base.customize configuration = .ok schema) :
    ∃ members, schema.root = base.root.apply (.structure members) ∧
      List.Forall₂ Declaration.ReadFrom configuration.optionPairs (plainBlocks members) := by
  obtain ⟨declared, read, rfl⟩ := customize_eq_ok_iff.mp built
  have pairs := Declaration.readFrom_of_readConfiguration plain read
  let members := declared.map fun named : NamedBlock => (named.1.text, named.2)
  have same : plainBlocks members = declared := by
    rw [plainBlocks, List.map_map]
    refine (List.map_congr_left fun named inside => ?_).trans (List.map_id declared)
    obtain ⟨pair, -, shown, -⟩ := exists_of_forall₂ pairs.flip inside
    exact Prod.ext (by simp [shown, WireName.plain]) rfl
  refine ⟨members, ?_, same ▸ pairs⟩
  rw [root, root, Node.apply, Node.members, Node.extendMembers_eq_declareAll, same]
  rfl

theorem hasTrail_of_customize (plain : configuration.NamesPlainly)
    (built : base.customize configuration = .ok schema) (has : schema.root.HasTrail trail) :
    base.root.HasTrail trail ∨ configuration.Configures trail := by
  obtain ⟨members, root, pairs⟩ := exists_members_of_customize plain built
  rw [root] at has
  refine (Node.hasTrail_of_apply _ _ _ has).elim .inl fun declared => ?_
  cases declared with
  | here => exact .inl Node.hasTrail_nil
  | @member _ _ name block trail given named deeper =>
      cases List.mem_singleton.mp given
      have inside : (.plain name, block) ∈ plainBlocks members := List.mem_map.mpr ⟨_, named, rfl⟩
      obtain ⟨pair, known, shown, read⟩ := exists_of_forall₂ pairs.flip inside
      have wire : name = pair.1.shown := congrArg WireName.text shown
      have written : pair.2.WrittenAt (fun _ => True) trail :=
        Descriptor.writtenAt_of_readBlock (fun _ _ _ _ _ _ => trivial) deeper read
      exact .inr (wire ▸ .option known written.declaresInside)
  | element given => simp at given

/-- Everything in a schema was declared by a configuration that it was built from. -/
theorem exists_configures (plain : ∀ configuration ∈ configurations, configuration.NamesPlainly)
    (built : configurations.foldlM customize empty = .ok schema) (below : trail ≠ [])
    (has : schema.root.HasTrail trail) :
    ∃ configuration ∈ configurations, configuration.Configures trail := by
  refine foldlM_preserves (fun schema : Schema => schema.root.HasTrail trail →
    ∃ configuration ∈ configurations, configuration.Configures trail) ?_ ?_ built has
  · intro before after configuration inside held step stands
    rcases hasTrail_of_customize (plain configuration inside) step stands with stood | declared
    · exact held stood
    · exact ⟨configuration, inside, declared⟩
  · intro stands
    cases trail with
    | nil => contradiction
    | cons branch trail =>
        obtain ⟨member, inside, -⟩ := Node.hasTrail_structure.mp stands
        simp [empty] at inside

end Schema

end QueryOptions
