import QueryOptions.Proofs.Origin
import QueryOptions.Proofs.ParamNames

namespace QueryOptions

/-! What every schema that was built by customizing can rely on: the names of each level find the
nodes that bear them, lists have the member that lists have, and wire names are the declared ones. -/

/-- Look-ups by either name answer for the nodes of the level. Of nodes with one binding name the
last is found. -/
structure Indexed (level : List Node) : Prop where
  distinct : DistinctWires level
  plain : ∀ node ∈ level, node.wire = .plain node.wire.text
  byWire : ∀ wire node, findWire? wire level = some node ↔ node ∈ level ∧ node.wire.text = wire
  byBinding : ∀ binding node, findBinding? binding level = some node ↔
    ∃ before after, level = before ++ node :: after ∧ node.binding = binding ∧
      ∀ later ∈ after, later.binding ≠ binding
  unbound : ∀ binding, findBinding? binding level = none ↔ ∀ node ∈ level, node.binding ≠ binding

theorem findBinding?_eq_some_iff {level : List Node} {binding : Text} {node : Node} :
    findBinding? binding level = some node ↔
      ∃ before after, level = before ++ node :: after ∧ node.binding = binding ∧
        ∀ later ∈ after, later.binding ≠ binding := by
  rw [findBinding?, List.find?_eq_some_iff_append]
  constructor
  · rintro ⟨same, after, before, split, apart⟩
    refine ⟨before.reverse, after.reverse, ?_, beq_iff_eq.mp same, fun later inside => ?_⟩
    · have turned := congrArg List.reverse split
      simpa using turned
    · simpa using apart later (List.mem_reverse.mp inside)
  · rintro ⟨before, after, rfl, same, apart⟩
    refine ⟨beq_iff_eq.mpr same, after.reverse, before.reverse, by simp, fun later inside => ?_⟩
    simpa using apart later (List.mem_reverse.mp inside)

theorem WellNamed.indexed {level : List Node} (named : WellNamed level) : Indexed level where
  distinct := named.distinct
  plain := named.plain
  byWire _ _ := findWire?_eq_some_iff named.distinct
  byBinding _ _ := findBinding?_eq_some_iff
  unbound _ := findBinding?_eq_none_iff

namespace Node

/-- The members of all lists bear the name that stands for list members. -/
def ListsNamed (node : Node) : Prop :=
  ∀ trail heading member join, node.Stands trail (.list heading member join) →
    member.wire = .plain listMemberName

variable {node : Node} {heading : Heading}

@[simp] theorem listsNamed_scalar {leaf : LeafType} : (Node.scalar heading leaf).ListsNamed := by
  intro trail _ member join stands
  cases stands

@[simp] theorem listsNamed_list {member : Node} {join : ListJoin} :
    (Node.list heading member join).ListsNamed ↔
      member.wire = .plain listMemberName ∧ member.ListsNamed := by
  constructor
  · intro named
    exact ⟨named [] _ _ _ .here, fun trail _ _ _ stands => named _ _ _ _ (.element stands)⟩
  · rintro ⟨here, below⟩ trail _ _ _ stands
    cases stands with
    | here => exact here
    | element deeper => exact below _ _ _ _ deeper

@[simp] theorem listsNamed_structure {members : List Node} :
    (Node.structure heading members).ListsNamed ↔ ∀ member ∈ members, member.ListsNamed := by
  constructor
  · intro named member inside trail _ _ _ stands
    exact named _ _ _ _ (.member inside stands)
  · rintro below trail _ _ _ stands
    cases stands with
    | member inside deeper => exact below _ inside _ _ _ _ deeper

theorem listsNamed_withHeading (named : node.ListsNamed) :
    (node.withHeading heading).ListsNamed := by
  cases node with
  | scalar _ leaf => exact listsNamed_scalar
  | list _ member join => exact listsNamed_list.mpr (listsNamed_list.mp named)
  | «structure» _ members => exact listsNamed_structure.mpr (listsNamed_structure.mp named)

theorem listsNamed_listMemberOf (named : node.ListsNamed) :
    node.listMemberOf.wire = .plain listMemberName ∧ node.listMemberOf.ListsNamed := by
  cases node with
  | list _ member join => exact listsNamed_list.mp named
  | _ => exact ⟨rfl, listsNamed_scalar⟩

theorem listsNamed_members (named : node.ListsNamed) : ∀ member ∈ node.members, member.ListsNamed := by
  cases node with
  | «structure» _ members => exact listsNamed_structure.mp named
  | _ => exact nofun

mutual

theorem listsNamed_apply (node : Node) (named : node.ListsNamed) :
    ∀ descriptor, (node.apply descriptor).ListsNamed
  | .leaf _ => listsNamed_scalar
  | .required => listsNamed_withHeading named
  | .rename _ => listsNamed_withHeading named
  | .pattern => named
  | .list _ block => by
      obtain ⟨wire, inside⟩ := listsNamed_listMemberOf named
      rw [apply, listsNamed_list, wire_extend]
      exact ⟨wire, listsNamed_extend _ inside block⟩
  | .structure members => by
      rw [apply, listsNamed_structure]
      exact listsNamed_extendMembers _ (listsNamed_members named) members

theorem listsNamed_extend (node : Node) (named : node.ListsNamed) :
    ∀ descriptors, (node.extend descriptors).ListsNamed
  | [] => named
  | descriptor :: rest => by
      rw [extend]
      exact listsNamed_extend _ (listsNamed_apply node named descriptor) rest

theorem listsNamed_extendMembers (known : List Node) (named : ∀ member ∈ known, member.ListsNamed) :
    ∀ declared, ∀ member ∈ extendMembers known declared, member.ListsNamed
  | [] => named
  | (name, block) :: rest => by
      rw [extendMembers]
      refine listsNamed_extendMembers _ (fun member inside => ?_) rest
      rcases mem_putNode inside with rfl | before
      · refine listsNamed_extend _ ?_ block
        cases found : findWire? name known with
        | none => exact listsNamed_scalar
        | some first => exact named first (mem_of_findWire? found)
      · exact named member before

end

end Node

namespace Schema

variable {base schema : Schema} {configuration : Value} {configurations : List Value}

theorem plainlyReachable_of_foldlM
    (plain : ∀ configuration ∈ configurations, configuration.NamesPlainly)
    (built : configurations.foldlM customize empty = .ok schema) : schema.PlainlyReachable :=
  foldlM_preserves PlainlyReachable (fun _ _ configuration inside reached step =>
    .customize reached (plain configuration inside) step) .empty built

theorem listsNamed_of_foldlM
    (plain : ∀ configuration ∈ configurations, configuration.NamesPlainly)
    (built : configurations.foldlM customize empty = .ok schema) : schema.root.ListsNamed := by
  refine foldlM_preserves (fun schema : Schema => schema.root.ListsNamed) ?_ ?_ built
  · intro before after configuration inside named step
    obtain ⟨members, root, -⟩ := exists_members_of_customize (plain configuration inside) step
    exact root ▸ Node.listsNamed_apply before.root named (.structure members)
  · exact Node.listsNamed_structure.mpr nofun

/-- Declared options stay. -/
theorem exists_option_of_foldlM
    (plain : ∀ configuration ∈ configurations, configuration.NamesPlainly)
    (built : configurations.foldlM customize base = .ok schema) :
    (∀ wire ∈ wireTexts base.options, wire ∈ wireTexts schema.options) ∧
      ∀ configuration ∈ configurations, ∀ pair ∈ configuration.optionPairs,
        pair.1.shown ∈ wireTexts schema.options := by
  induction configurations generalizing base with
  | nil =>
      cases built
      exact ⟨fun _ => id, nofun⟩
  | cons configuration rest ih =>
      obtain ⟨plainHere, plainRest⟩ := List.forall_mem_cons.mp plain
      rw [List.foldlM_cons] at built
      obtain ⟨middle, step, builtRest⟩ := ok_of_bind built
      obtain ⟨kept, later⟩ := ih plainRest builtRest
      obtain ⟨declared, read, rfl⟩ := customize_eq_ok_iff.mp step
      refine ⟨fun wire known => kept wire (mem_wireTexts_declareAll.mpr (.inl known)), ?_⟩
      refine List.forall_mem_cons.mpr ⟨fun pair given => kept _ ?_, later⟩
      obtain ⟨named, inside, shown, -⟩ :=
        exists_of_forall₂ (Declaration.readFrom_of_readConfiguration plainHere read) given
      exact mem_wireTexts_declareAll.mpr (.inr ⟨named, inside, congrArg WireName.text shown⟩)

/-- At every level of a schema the names find the nodes that bear them, every list has the member
that lists have, and the wire names on the way to a node are those under which it was declared,
whatever it was renamed to. No declared option is lost. -/
theorem indexed_of_configurations
    (plain : ∀ configuration ∈ configurations, configuration.NamesPlainly)
    (built : configurations.foldlM customize empty = .ok schema) :
    schema.root.Everywhere Indexed ∧
    (∀ trail heading member join, schema.root.Stands trail (.list heading member join) →
      member.wire = .plain Node.listMemberName ∧
        (join.text = Text.ofString "." ∨ join.text = Text.ofString ".member.")) ∧
    (∀ trail node, trail ≠ [] → schema.root.Stands trail node →
      ∃ configuration ∈ configurations, configuration.Configures trail) ∧
    ∀ configuration ∈ configurations, ∀ pair ∈ configuration.optionPairs,
      ∃ option, schema.optionByWireName? pair.1.shown = some option := by
  have reachable := plainlyReachable_of_foldlM plain built
  refine ⟨fun level found => (reachable.wellNamed level found).indexed, ?_, ?_, ?_⟩
  · intro trail heading member join stands
    refine ⟨listsNamed_of_foldlM plain built trail heading member join stands, ?_⟩
    cases join with
    | flat => exact .inl rfl
    | membered => exact .inr rfl
  · intro trail node below stands
    exact exists_configures plain built below ⟨node, stands⟩
  · intro configuration inside pair given
    have known := (exists_option_of_foldlM plain built).2 configuration inside pair given
    exact Option.isSome_iff_exists.mp (Option.isSome_iff_ne_none.mpr
      (mt findWire?_eq_none_iff.mp (not_not_intro known)))

/-- Options and members under names that are no texts, and an owner that takes the binding name of
the filters. -/
def numberedFilters : List Value :=
  let members : Value := .map [(.int 1, .list [.text "integer", .text "required"]),
    (.text "Name", .list [.map [(.text "rename", .text "1")], .map [(.text "list", .text "blob")]])]
  let filter : Value := .map [(.text "membered_list", .map [(.text "structure", members)])]
  [.list [.map [(.text "Filter", .list [filter])], .text "Owner"],
    .map [(.text "Owner", .list [.map [(.text "rename", .text "Filter")]]), (.bool true, .null)]]

theorem numberedFilters_indexed :
    (∀ configuration ∈ numberedFilters, configuration.NamesPlainly) ∧
    ∃ schema, numberedFilters.foldlM customize empty = .ok schema ∧
      schema.root.Everywhere Indexed ∧ schema.root.ListsNamed ∧
      (∀ trail node, trail ≠ [] → schema.root.Stands trail node →
        ∃ configuration ∈ numberedFilters, configuration.Configures trail) ∧
      ∃ option, schema.optionByWireName? "True" = some option := by
  have plain : ∀ configuration ∈ numberedFilters, configuration.NamesPlainly := by
    refine List.forall_mem_cons.mpr ⟨?_, List.forall_mem_singleton.mpr trivial⟩
    intro items found named
    cases found
    simp
  refine ⟨plain, _, rfl, ?_⟩
  obtain ⟨indexed, lists, declared, kept⟩ := indexed_of_configurations plain rfl
  refine ⟨indexed, fun trail heading member join stands => ?_, declared, ?_⟩
  · exact (lists trail heading member join stands).1
  · exact kept _ (List.mem_cons_of_mem _ List.mem_cons_self) (.bool true, .null)
      (List.mem_cons_of_mem _ List.mem_cons_self)

end Schema

end QueryOptions
