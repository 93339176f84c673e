import QueryOptions.Node.Extend
import QueryOptions.Proofs.Lookup

namespace QueryOptions

/-! Levels: the members of one structure side by side. At every level of a node that was built from
descriptors the wire names are distinct and spelled as they are. -/

namespace Node

/-- The node has a structure with these members, as itself, as a member or within lists. -/
inductive HasLevel : Node → List Node → Prop
  | here {heading members} : HasLevel (.structure heading members) members
  | member {heading members member level} (inside : member ∈ members)
      (deeper : HasLevel member level) : HasLevel (.structure heading members) level
  | element {heading member join level} (deeper : HasLevel member level) :
      HasLevel (.list heading member join) level

/-- A property of all levels of a node. -/
def Everywhere (property : List Node → Prop) (node : Node) : Prop :=
  ∀ level, node.HasLevel level → property level

variable {property : List Node → Prop} {heading : Heading}

@[simp] theorem everywhere_scalar {leaf : LeafType} :
    (Node.scalar heading leaf).Everywhere property := nofun

@[simp] theorem everywhere_list {member : Node} {join : ListJoin} :
    (Node.list heading member join).Everywhere property ↔ member.Everywhere property := by
  constructor
  · intro holds level deeper
    exact holds level (.element deeper)
  · intro holds level found
    cases found with
    | element deeper => exact holds level deeper

@[simp] theorem everywhere_structure {members : List Node} :
    (Node.structure heading members).Everywhere property ↔
      property members ∧ ∀ member ∈ members, member.Everywhere property := by
  constructor
  · intro holds
    exact ⟨holds members .here, fun member inside level deeper => holds level (.member inside deeper)⟩
  · intro holds level found
    obtain ⟨here, inside⟩ := holds
    cases found with
    | here => exact here
    | member known deeper => exact inside _ known level deeper

theorem everywhere_withHeading {node : Node} (holds : node.Everywhere property) :
    (node.withHeading heading).Everywhere property := by
  cases node with
  | scalar _ leaf => exact everywhere_scalar
  | list _ member join => exact everywhere_list.mpr (everywhere_list.mp holds)
  | «structure» _ members => exact everywhere_structure.mpr (everywhere_structure.mp holds)

theorem everywhere_default (wire : WireName) : (Node.default wire).Everywhere property :=
  everywhere_scalar

theorem everywhere_listMemberOf {node : Node} (holds : node.Everywhere property) :
    node.listMemberOf.Everywhere property := by
  cases node with
  | list _ member join => exact everywhere_list.mp holds
  | _ => exact everywhere_scalar

/-! Descriptors leave the wire name of a node as it is. -/

theorem wire_withHeading (node : Node) : (node.withHeading heading).wire = heading.wire := by
  cases node <;> rfl

theorem wire_apply (node : Node) (descriptor : Descriptor) :
    (node.apply descriptor).wire = node.wire := by
  cases descriptor <;> simp only [apply, wire_withHeading] <;> rfl

theorem wire_extend (node : Node) (descriptors : List Descriptor) :
    (node.extend descriptors).wire = node.wire := by
  induction descriptors generalizing node with
  | nil => rfl
  | cons descriptor rest ih => rw [extend, ih, wire_apply]

end Node

/-- Wire names are distinct, and none is spelled in another way within longer names. -/
structure WellNamed (level : List Node) : Prop where
  distinct : (level.map fun node => node.wire.text).Nodup
  plain : ∀ node ∈ level, node.wire = .plain node.wire.text

theorem mem_putNode {node other : Node} {nodes : List Node} (member : other ∈ putNode node nodes) :
    other = node ∨ other ∈ nodes := by
  induction nodes with
  | nil => exact .inl (List.mem_singleton.mp member)
  | cons known rest ih =>
      unfold putNode at member
      split at member
      · rcases List.mem_cons.mp member with same | inRest
        · exact .inl same
        · exact .inr (List.mem_cons_of_mem _ inRest)
      · rcases List.mem_cons.mp member with same | inRest
        · exact .inr (same ▸ List.mem_cons_self)
        · exact (ih inRest).imp_right (List.mem_cons_of_mem _)

theorem nodup_putNode {node : Node} {nodes : List Node}
    (distinct : (nodes.map fun known => known.wire.text).Nodup) :
    ((putNode node nodes).map fun known => known.wire.text).Nodup := by
  induction nodes with
  | nil => exact List.nodup_singleton _
  | cons known rest ih =>
      simp only [List.map_cons, List.nodup_cons] at distinct
      obtain ⟨fresh, distinctRest⟩ := distinct
      unfold putNode
      split
      · rename_i same
        have text : known.wire.text = node.wire.text := beq_iff_eq.mp same
        rw [text] at fresh
        exact List.nodup_cons.mpr ⟨fresh, distinctRest⟩
      · rename_i different
        refine List.nodup_cons.mpr ⟨fun member => ?_, ih distinctRest⟩
        obtain ⟨other, inside, text⟩ := List.mem_map.mp member
        rcases mem_putNode inside with rfl | inRest
        · have same : (known.wire.text == other.wire.text) = true := beq_iff_eq.mpr text.symm
          exact different same
        · exact fresh (List.mem_map.mpr ⟨other, inRest, text⟩)

theorem WellNamed.put {node : Node} {nodes : List Node} (named : WellNamed nodes)
    (plain : node.wire = .plain node.wire.text) : WellNamed (putNode node nodes) := by
  refine ⟨nodup_putNode named.distinct, fun other member => ?_⟩
  rcases mem_putNode member with rfl | inside
  · exact plain
  · exact named.plain other inside

theorem mem_of_findWire? {wire : Text} {nodes : List Node} {node : Node}
    (found : findWire? wire nodes = some node) : node ∈ nodes :=
  List.mem_reverse.mp (List.mem_of_find?_eq_some found)

namespace Node

variable {property : List Node → Prop}

/-- The property holds of the level and of all levels below it. -/
def AllLevels (property : List Node → Prop) (members : List Node) : Prop :=
  property members ∧ ∀ member ∈ members, member.Everywhere property

/-- Members that are fit to stand in one structure. -/
abbrev MembersNamed : List Node → Prop := AllLevels WellNamed

theorem AllLevels.put {node : Node} {members : List Node} (holds : AllLevels property members)
    (level : property (putNode node members)) (inside : node.Everywhere property) :
    AllLevels property (putNode node members) := by
  refine ⟨level, fun member found => ?_⟩
  rcases mem_putNode found with rfl | known
  · exact inside
  · exact holds.2 member known

theorem AllLevels.everywhere_declared {members : List Node} (holds : AllLevels property members)
    (wire : WireName) :
    ((findWire? wire.text members).getD (default wire)).Everywhere property := by
  cases found : findWire? wire.text members with
  | none => exact everywhere_default _
  | some member => exact holds.2 member (mem_of_findWire? found)

/-- A property of levels that no declaration of a member breaks. -/
structure KeptByDeclaring (property : List Node → Prop) : Prop where
  nil : property []
  declare {members : List Node} {name : Text} {block : List Descriptor}
      (holds : property members) :
    property (putNode (((findWire? name members).getD (default (.plain name))).extend block) members)

theorem KeptByDeclaring.members (kept : KeptByDeclaring property) {node : Node}
    (holds : node.Everywhere property) : AllLevels property node.members := by
  cases node with
  | «structure» heading members => exact everywhere_structure.mp holds
  | _ => exact ⟨kept.nil, nofun⟩

mutual

theorem everywhere_apply (kept : KeptByDeclaring property) (node : Node)
    (holds : node.Everywhere property) : ∀ descriptor, (node.apply descriptor).Everywhere property
  | .leaf _ => everywhere_scalar
  | .required => everywhere_withHeading holds
  | .rename _ => everywhere_withHeading holds
  | .pattern => holds
  | .list _ block => by
      rw [apply, everywhere_list]
      exact everywhere_extend kept _ (everywhere_listMemberOf holds) block
  | .structure members => by
      rw [apply, everywhere_structure]
      exact allLevels_extendMembers kept _ (kept.members holds) members

theorem everywhere_extend (kept : KeptByDeclaring property) (node : Node)
    (holds : node.Everywhere property) :
    ∀ descriptors, (node.extend descriptors).Everywhere property
  | [] => holds
  | descriptor :: rest => by
      rw [extend]
      exact everywhere_extend kept _ (everywhere_apply kept node holds descriptor) rest

theorem allLevels_extendMembers (kept : KeptByDeclaring property) (known : List Node)
    (holds : AllLevels property known) :
    ∀ declared, AllLevels property (extendMembers known declared)
  | [] => holds
  | (name, block) :: rest => by
      rw [extendMembers]
      have inside := everywhere_extend kept _ (holds.everywhere_declared (.plain name)) block
      exact allLevels_extendMembers kept _ (holds.put (kept.declare holds.1) inside) rest

end

end Node

theorem WellNamed.declared {level : List Node} (named : WellNamed level) {wire : WireName}
    (plain : wire = .plain wire.text) (block : List Descriptor) :
    WellNamed (putNode (((findWire? wire.text level).getD (.default wire)).extend block) level) := by
  refine named.put ?_
  rw [Node.wire_extend]
  cases found : findWire? wire.text level with
  | none => exact plain
  | some node => exact named.plain node (mem_of_findWire? found)

theorem WellNamed.kept : Node.KeptByDeclaring WellNamed where
  nil := ⟨List.nodup_nil, nofun⟩
  declare := by
    intro level name block named
    have plain : WireName.plain name = .plain (WireName.plain name).text := rfl
    exact named.declared plain block

end QueryOptions
