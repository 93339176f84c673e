import QueryOptions.Proofs.LoadErrors
import QueryOptions.Proofs.NameWarnings

namespace QueryOptions

/-! Binding names that are not in snake case. The rule for binding names makes none of a wire name in
upper camel case, so where such an option has one, a rename that was declared for it gave it. -/

/-- Descriptors give a node the binding name. -/
def Renaming (binding : Text) (block : List Descriptor) : Prop :=
  ∃ target, .rename target ∈ block ∧ Naming.bindingName target = binding

namespace Node

/-- A wire name in upper camel case with a binding name that is not in snake case. -/
structure Misnamed (binding : Text) (node : Node) : Prop where
  pascal : Naming.isPascalCase node.wire.text = true
  unlike : Naming.isSnakeCase binding = false
  named : node.binding = binding

variable {node : Node} {binding : Text}

/-- Of the descriptors only a rename changes a binding name. -/
theorem misnamed_of_apply {descriptor : Descriptor}
    (misnamed : (node.apply descriptor).Misnamed binding) :
    node.Misnamed binding ∨ Renaming binding [descriptor] := by
  obtain ⟨pascal, unlike, named⟩ := misnamed
  rw [wire_apply] at pascal
  rw [Node.binding, heading_apply] at named
  cases descriptor with
  | rename target => exact .inr ⟨target, List.mem_cons_self, named⟩
  | _ => exact .inl ⟨pascal, unlike, named⟩

/-- By default the binding name suits the wire name. -/
theorem not_misnamed_default {wire : WireName} : ¬ (default wire).Misnamed binding := by
  rintro ⟨pascal, unlike, rfl⟩
  have snake := Naming.isSnakeCase_of_isPascalCase pascal
  exact absurd (snake.symm.trans unlike) (by decide)

theorem not_misnamed_listMember : ¬ listMember.Misnamed binding :=
  fun misnamed => absurd misnamed.pascal (by decide)

theorem traced_misnamed (binding : Text) : Traced (Misnamed binding) (Renaming binding) where
  mono within caused := caused.imp fun _ given => given.imp_left (within ·)
  apply := misnamed_of_apply
  default fresh _ := absurd fresh not_misnamed_default
  listMember fresh _ := absurd fresh not_misnamed_listMember

end Node

/-! Renames as they are written. -/

namespace Value

/-- Among declared descriptors is a rename that gives the binding name. -/
def RenamesTo (binding : Text) (block : Value) : Prop :=
  ∃ given ∈ block.descriptorItems, ∃ target,
    Descriptor.declaredTarget? given = some target ∧ Naming.bindingName target.shown = binding

/-- A configuration gives the binding name to what stands at the end of a trail from the options
on. -/
inductive Renames (configuration : Value) (binding : Text) : Trail → Prop
  | option {name description trail} (given : (name, description) ∈ configuration.optionPairs)
      (deeper : description.WrittenAt (RenamesTo binding) trail) :
      Renames configuration binding (.member name.shown :: trail)

end Value

theorem Descriptor.renamesTo_of_readBlock {owner inner binding : Text} {value : Value}
    {block : List Descriptor} (read : readBlock owner inner value = .ok block)
    (caused : Renaming binding block) : value.RenamesTo binding := by
  obtain ⟨target, member, rfl⟩ := caused
  obtain ⟨item, inside, readItem⟩ := exists_item_of_readBlock read member
  obtain ⟨argument, declared, rfl⟩ := Option.map_eq_some_iff.mp (declaredTarget?_of_read readItem)
  exact ⟨item, inside, argument, declared, rfl⟩

/-- A list of options declares what its options are read from, and names alone. -/
theorem Declaration.exists_pair_of_readConfiguration {items : List Value}
    {declared : List NamedBlock} (read : readConfiguration (.list items) = .ok declared)
    {named : NamedBlock} (inside : named ∈ declared) :
    named.2 = [] ∨ ∃ pair ∈ (Value.list items).optionPairs, ReadFrom pair named := by
  obtain ⟨declarations, parsed, blocks⟩ := ok_of_bind read
  obtain ⟨declaration, given, block⟩ := mem_of_mapM_ok blocks inside
  have valued : items.mapM ofValue = .ok declarations := parsed
  obtain ⟨option, member, one⟩ := mem_of_mapM_ok valued given
  by_cases bare : ∃ kind, option = .kind kind
  · obtain ⟨kind, rfl⟩ := bare
    cases one
    exact .inl (Except.ok.inj (readBlock_eq_ok_iff.mp block).2).symm
  · obtain ⟨pair, paired, from_⟩ := readFrom_of_ofValue
      (fun kind same => bare ⟨kind, same⟩) one block
    exact .inr ⟨pair, List.mem_filterMap.mpr ⟨option, member, paired⟩, from_⟩

/-- No descriptor at all renames nothing. -/
theorem not_appliedAt_nil {binding : Text} {trail : Trail} :
    ¬ AppliedAt (Renaming binding) [] trail := by
  intro applied
  cases applied with
  | here given =>
      obtain ⟨target, inside, -⟩ := given
      exact List.not_mem_nil inside
  | member given => exact List.not_mem_nil given
  | element given => exact List.not_mem_nil given

/-- A binding name that does not suit its wire name comes from a declared rename. -/
theorem Schema.renames_of_misnamed {schema : Schema} {lineage : List Value} {trail : Trail}
    {binding : Text} (built : empty.customize (.list lineage) = .ok schema) (below : trail ≠ [])
    (has : schema.root.HasAt (Node.Misnamed binding) trail) :
    (Value.list lineage).Renames binding trail := by
  obtain ⟨declared, read, rfl⟩ := customize_eq_ok_iff.mp built
  obtain ⟨branch, rest, rfl⟩ := List.exists_cons_of_ne_nil below
  obtain ⟨member, inside, rfl, deeper⟩ := Node.hasAt_structure.mp has
  rcases Node.hasAt_of_declareAll (Node.traced_misnamed binding) inside deeper with
    ⟨_, known, -⟩ | ⟨named, given, wire, applied⟩
  · exact absurd known List.not_mem_nil
  · -- an option that is declared by its name alone has no descriptors that could rename
    rcases Declaration.exists_pair_of_readConfiguration read given with none | ⟨pair, known, name, block⟩
    · exact absurd (none ▸ applied) not_appliedAt_nil
    · rw [← wire, name]
      exact .option known (Descriptor.writtenAt_of_readBlock
        (fun _ _ _ _ => Descriptor.renamesTo_of_readBlock) applied block)

namespace NamingLint

/-- The option has its binding name from a rename among the declarations of its operation, those of
the bases of the operation included. -/
def Renamed (source : OperationSource) (operation : Value × Schema) (option : PlacedOption) : Prop :=
  ∃ declared ∈ source.operations, declared.1 = operation.1 ∧ ∃ lineage,
    source.Lineage declared lineage ∧ (Value.list lineage).Renames option.node.binding option.trail

theorem renamed_of_makes {source : OperationSource} {declared : Value × Value}
    {operation : Value × Schema} {option : PlacedOption} (given : declared ∈ source.operations)
    (makes : source.Makes declared operation) (reachable : operation.2.Reachable)
    (placed : option ∈ optionsOf operation) (fits : (LintedName.wire option).Fits)
    (unfit : ¬ (LintedName.binding option).Fits) : Renamed source operation option := by
  obtain ⟨same, lineage, line, customized⟩ := makes
  obtain ⟨stands, ends⟩ := places_optionsOf_iff.mp (exists_places placed)
  have other : Naming.isSnakeCase option.node.binding = false :=
    eq_false_of_ne_true fun snake => unfit
      ((LintedName.fits_binding_iff (bindingMade_of_mem_optionsOf reachable placed)).mpr snake)
  have misnamed : option.node.Misnamed option.node.binding :=
    ⟨Naming.isPascalCase_iff.mpr fits, other, rfl⟩
  exact ⟨declared, given, same.symm, lineage, line,
    Schema.renames_of_misnamed customized ends.ne_nil ⟨option.node, stands, misnamed⟩⟩

/-- The binding name of a name in upper camel case is in snake case. Hence the naming linter warns of
the binding name of an option only where it warns of its wire name too, or where the option has that
binding name from a rename. -/
theorem bindingWarnings_of_findings {document : CatalogDocument} {entries : List (Value × Value)}
    {catalog : Catalog} (mapping : document.value = .map entries)
    (distinct : Entries.Distinct (document.operationSource entries).operations)
    (loaded : document.load = .ok catalog) (sources : Option SourceMap) :
    (∀ wire, Naming.isPascalCase wire = true →
      Naming.isSnakeCase (Naming.bindingName wire) = true) ∧
    ∀ finding ∈ findings catalog sources, finding.isWarning = true →
      ∃ operation ∈ catalog.operations, ∃ name ∈ namesOf operation, ¬ name.Fits ∧
        finding = name.warning (locationOf catalog sources operation) ∧
        ∀ option, name = .binding option →
          ¬ (LintedName.wire option).Fits ∧
            LintedName.warning (locationOf catalog sources operation) (.wire option) ∈
              findings catalog sources ∨
          Renamed (document.operationSource entries) operation option := by
  obtain ⟨_, also, built⟩ := document.exists_schemas loaded
  cases mapping.symm.trans also
  have reachable := OperationSource.reachable_of_schemas built
  have shaped := document.isOperation_of_shaped mapping (document.shaped_of_load mapping loaded)
  have makes := OperationSource.makes_of_schemas distinct shaped built
  refine ⟨fun wire => Naming.isSnakeCase_of_isPascalCase, fun finding inside isWarning => ?_⟩
  obtain ⟨operation, listed, name, among, unfit, rfl⟩ :=
    (warned_iff sources reachable).mp ⟨inside, isWarning⟩
  refine ⟨operation, listed, name, among, unfit, rfl, ?_⟩
  rintro option rfl
  have placed := mem_optionsOf_of_binding among
  -- on a wire name of another form there is a warning too; beside any other only a rename is left
  by_cases fits : (LintedName.wire option).Fits
  · obtain ⟨declared, given, made⟩ := exists_of_forall₂ makes.flip listed
    exact .inr (renamed_of_makes given made (reachable operation listed) placed fits unfit)
  · have also := (warned_iff sources reachable).mpr
      ⟨operation, listed, _, wire_mem_namesOf placed, fits, rfl⟩
    exact .inl ⟨fits, also.1⟩

/-- A rank whose new name begins with a digit, in an operation that another one extends. -/
def rankedOperations : List (Value × Value) :=
  let ranked : Value := .map [(.text "Rank", .list [.map [(.text "rename", .text "2nd")]])]
  [(.text "Search", .list [ranked]),
    (.text "Find", .map [(.text "base", .text "Search"), (.text "options", .list [.text "Owner"])])]

/-- The binding name of an option whose wire name is fine. -/
def isBesideFine : LintedName → Bool
  | .binding option => (LintedName.wire option).Fits
  | _ => false

theorem rankedOperations_renamed : ∃ catalog, (imagesDocument rankedOperations).load = .ok catalog ∧
    ∃ operation ∈ catalog.operations, ∃ option ∈ optionsOf operation,
      Renamed ⟨rankedOperations, none, none⟩ operation option := by
  have found : ((imagesDocument rankedOperations).load.map fun catalog =>
      ((findings catalog none).any Finding.isWarning, catalog.operations.all fun operation =>
        (namesOf operation).all fun name => decide name.Fits || isBesideFine name)).toOption =
          some (true, true) := by
    decide +kernel
  obtain ⟨catalog, loaded, read⟩ := map_eq_ok_iff.mp (toOption_eq_some_iff.mp found)
  obtain ⟨warns, fine⟩ := Prod.mk.inj read
  obtain ⟨finding, inside, isWarning⟩ := List.any_eq_true.mp warns
  obtain ⟨operation, listed, name, among, unfit, -, explained⟩ :=
    (bindingWarnings_of_findings rfl (by decide) loaded none).2 finding inside isWarning
  have both := List.all_eq_true.mp (List.all_eq_true.mp fine operation listed) name among
  rw [decide_eq_false unfit, Bool.false_or] at both
  cases name with
  | binding option =>
      have fits : (LintedName.wire option).Fits := of_decide_eq_true both
      have renamed := (explained option rfl).resolve_left fun warned => warned.1 fits
      exact ⟨catalog, loaded, operation, listed, option, mem_optionsOf_of_binding among, renamed⟩
  | _ => cases both

end NamingLint

end QueryOptions
